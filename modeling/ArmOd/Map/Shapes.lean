import ArmOd.Qt.Double

/-!
# The shapes of the features

A feature of the map has shapes: it sets their attributes, and puts a shape on the map, as it is by
then, or takes it off. A shape is its attributes with what was last drawn of it. The origin point of
a shape is a pointer to the position of its feature; it is set whenever that position is.
-/

namespace ArmOd

/-- A shape: its attributes, and what is on the map. -/
structure MapShape (α : Type) where
  attributes : α
  onMap : Option α := none

namespace MapShape

variable {α : Type}

def updateMap (shape : MapShape α) : MapShape α := { shape with onMap := some shape.attributes }

def removeFromMap (shape : MapShape α) : MapShape α := { shape with onMap := none }

end MapShape

/-- `Pw::Gis::Sector`. -/
structure Sector where
  originPoint : QPointF
  radius : Double
  startAngle : Double
  endAngle : Double
  deriving DecidableEq, Repr

/-- `Pw::Gis::Circle`, whose radius is an `int`. -/
structure Circle where
  originPoint : QPointF
  radius : Int
  deriving DecidableEq, Repr

end ArmOd
