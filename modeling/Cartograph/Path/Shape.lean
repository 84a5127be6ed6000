import Cartograph.Number.Rounding
import Cartograph.Path.Command

/-! Paths of common shapes. Arcs are cubic curves of at most a quarter turn each. -/

namespace Cartograph.Path

def pi : Float := 3.141592653589793

def quarterTurn : Float := 1.5707963267948966

def fullTurn : Float := 6.283185307179586

def radians (degrees : Float) : Float := degrees * (pi / 180)

def polyline (points : List (Point Float)) : Path :=
  match points with
  | [] => []
  | first :: rest =>
    let lines := rest.map fun p => Command.line p .absolute
    let closing := match rest.getLast? with
      | some last => if first.near last 1e-9 then [Command.close] else []
      | none => []
    .move first .absolute :: lines ++ closing

def onCircle (center : Point Float) (radius angle : Float) : Point Float :=
  center + (⟨angle.cos, angle.sin⟩ : Point Float) * radius

def tangent (angle : Float) : Point Float := ⟨-angle.sin, angle.cos⟩

/-- Curves along an arc; the pen must already be where it begins. -/
def arc (center : Point Float) (radius start finish : Float) : Path :=
  let sweep := finish - start
  let count := Number.toCount (Number.greatest (Number.ceiling (sweep.abs / quarterTurn)) 1)
  let step := sweep / Float.ofNat count
  let reach := 4 / 3 * (step / 4).tan * radius
  (List.range count).map fun i =>
    let before := start + step * Float.ofNat i
    let after := before + step
    let p := onCircle center radius before
    let q := onCircle center radius after
    .curve (p + tangent before * reach) (q - tangent after * reach) q .absolute

def circle (center : Point Float) (radius : Float) : Path :=
  .move (center + ⟨radius, 0⟩) .absolute :: arc center radius 0 fullTurn ++ [.close]

/-- A wedge from the center; angles go from the x axis towards the y axis. -/
def sector (center : Point Float) (radius start finish : Float) : Path :=
  .move center .absolute :: .line (onCircle center radius start) .absolute ::
    arc center radius start finish ++ [.close]

end Cartograph.Path
