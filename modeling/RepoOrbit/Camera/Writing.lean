import RepoOrbit.Camera.Controller
import RepoOrbit.Validation.Value

/-!
# Writing poses

Poses, and what the renderer is told, as values.
-/

namespace RepoOrbit

/-- A point as a value: its three coordinates. -/
def Place.toValue (p : Place Float) : Value := .list [.number p.x, .number p.y, .number p.z]

/-- A pose as a value. -/
def CameraPose.toValue (p : CameraPose Float) : Value :=
  .map [("position", p.position.toValue), ("lookAt", p.lookAt.toValue)]

/-- What the renderer is told, as a value. -/
def CameraCall.toValue : CameraCall Float → Value
  | .orbitControls enabled autoRotate =>
    .map [("orbitControls", .map [("enabled", .bool enabled), ("autoRotate", .bool autoRotate)])]
  | .flyTo pose => .map [("flyTo", pose.toValue)]

end RepoOrbit
