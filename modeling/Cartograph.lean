import Cartograph.Main
import Cartograph.Proofs.Canvas.PathData
import Cartograph.Proofs.Canvas.Surfaces
import Cartograph.Proofs.Number.Nearest
import Cartograph.Proofs.Number.Scientific
import Cartograph.Proofs.Number.Shortest
import Cartograph.Proofs.Number.Numeral
import Cartograph.Proofs.Number.RoundTrip
import Cartograph.Proofs.Path.RoundTrip
import Cartograph.Proofs.Number.Order
import Cartograph.Proofs.Building.Levels
import Cartograph.Proofs.Building.Tiling
import Cartograph.Proofs.Figure.Rings
import Cartograph.Proofs.Path.Grammar
import Cartograph.Proofs.Building.Walls
import Cartograph.Proofs.Building.Painting
import Cartograph.Proofs.Placement.Occupancy
import Cartograph.Proofs.Placement.Extras
import Cartograph.Proofs.Placement.Canvas
import Cartograph.Proofs.Rendering.Order
import Cartograph.Proofs.Canvas.Lines
import Cartograph.Proofs.Rendering.Painting
import Cartograph.Proofs.Rendering.Turns
import Cartograph.Proofs.Rendering.Categories
import Cartograph.Proofs.Rendering.Priority
import Cartograph.Proofs.Building.Roofs
import Cartograph.Proofs.Canvas.Written
import Cartograph.Proofs.Canvas.Document
import Cartograph.Proofs.Rendering.Document
import Cartograph.Proofs.Canvas.Groups
import Cartograph.Proofs.Path.Shift
import Cartograph.Proofs.Path.Faults
import Cartograph.Proofs.Figure.Winding
import Cartograph.Proofs.Building.Segments
import Cartograph.Proofs.Building.Index
import Cartograph.Proofs.Figure.Orientation
import Cartograph.Proofs.Number.Difference
import Cartograph.Proofs.Number.Whole
import Cartograph.Proofs.Figure.Offset
import Cartograph.Proofs.Figure.Closing
import Cartograph.Proofs.Figure.Displacement
import Cartograph.Proofs.Color.Lightness
import Cartograph.Proofs.Color.Hue
import Cartograph.Proofs.Color.RoundTrip
import Cartograph.Proofs.Sector.Heading
import Cartograph.Proofs.Sector.View
import Cartograph.Proofs.Scene.Loading
import Cartograph.Proofs.Raster.Text
import Cartograph.Proofs.Placement.Label
import Cartograph.Proofs.Raster.Premultiplied
