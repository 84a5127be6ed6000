import Cartograph.Figure.Offset
import Cartograph.Number.Rank
import Cartograph.Style
import Cartograph.Tags

/-! Areas and lines of a map, and the order in which they are drawn. -/

namespace Cartograph

structure Figure where
  tags : Tags
  inners : List Ring
  outers : List Ring

namespace Figure

def ofRings (tags : Tags) (inners outers : List Ring) : Figure :=
  let (inners, outers) := Ring.normalize inners outers
  ⟨tags, inners, outers⟩

def rings (figure : Figure) : List Ring := figure.outers ++ figure.inners

def parallelPath (figure : Figure) (shift : Point Float) (parallel : Float) : Path :=
  figure.rings.flatMap fun ring => Ring.path ring shift parallel

def path (figure : Figure) (shift : Point Float) : Path := figure.parallelPath shift 0

def tag? (figure : Figure) (key : String) : Option String := figure.tags.get? key

end Figure

structure StyledFigure where
  figure : Figure
  style : Style
  priority : Number.Rank
  parallel : Float := 0

namespace StyledFigure

/-- The ground layer unless a tag gives a number. -/
def layer (styled : StyledFigure) : Float :=
  ((styled.figure.tag? "layer").bind fun value => Tags.finite? value.toList).getD 0

def orderKey (styled : StyledFigure) : List Number.Rank :=
  [.ofFloat styled.layer, styled.priority]

protected def compare (a b : StyledFigure) : Ordering :=
  Number.Rank.compareAll a.orderKey b.orderKey

/-- Equal figures keep their order, and later ones are drawn on top. -/
def sort (figures : List StyledFigure) : List StyledFigure :=
  figures.mergeSort fun a b => (a.compare b).isLE

def path (styled : StyledFigure) (shift : Point Float) : Path :=
  styled.figure.parallelPath shift styled.parallel

end StyledFigure

end Cartograph
