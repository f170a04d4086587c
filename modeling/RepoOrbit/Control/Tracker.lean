import RepoOrbit.Gesture.Hand
import RepoOrbit.Path

/-!
# The hand tracker

A tracker takes pictures with a camera and has a landmark model find the hands in
them (`HandTracker`). It calls on both (`TrackerCall`): a camera that it has
opened and cannot use is released at once, and of an open tracker the model is
closed before the camera is released.

The model wants every picture to be later than the one before. Pictures are
stamped with the milliseconds since the tracker was opened, or with one more than
the last stamp if that is later (`HandTracker.stamp`).
-/

namespace RepoOrbit

/-- What a tracker is made for. -/
structure TrackerConfig where
  cameraIndex : Int
  model : Path
  minConfidence : Float

/-- What a tracker finds when it is opened: the modules that are not installed,
whether there is a model, whether the camera delivers, and why the model cannot
be loaded. -/
structure VisionStack where
  missing : List String
  hasModel : Bool
  deliversPictures : Bool
  modelFault : Option String

/-- Why a tracker cannot be opened. -/
inductive TrackerFault where
  | moduleMissing (name : String)
  | modelMissing (model : Path)
  | cameraClosed (index : Int)
  | modelRefused (reason : String)
  deriving Repr

/-- What is said of a fault. -/
def TrackerFault.message : TrackerFault → String
  | .moduleMissing name => s!"Hand tracking needs opencv-python and mediapipe ({name} missing)"
  | .modelMissing model =>
    let path := model.toString
    s!"Missing hand landmarker model: {path}"
  | .cameraClosed index => s!"Cannot open camera {index}"
  | .modelRefused reason => s!"Cannot load hand landmarker: {reason}"

/-- A call to the camera or to the model. -/
inductive TrackerCall where
  | openCamera (index : Int)
  | loadModel (config : TrackerConfig)
  | detect (stamp : Int)
  | closeModel
  | releaseCamera

/-- A picture as the model sees it: the points of each hand, and the labels of
each, the likeliest first. -/
structure Picture where
  hands : List (List (Landmark Float))
  labels : List (List String)

/-- A tracker: since when it is open, and the stamp of its last picture. -/
structure HandTracker where
  openSince : Option Float
  lastStamp : Int

/-- The modules that a tracker needs, in the order in which it looks for them. -/
def visionModules : List String := ["cv2", "mediapipe", "mediapipe.tasks", "mediapipe.tasks.python"]

/-- The number of hands that the model looks for. -/
def trackedHands : Nat := 2

/-- The label of a hand of a picture. -/
def Picture.label (p : Picture) (i : Nat) : String := (((p.labels[i]?).bind List.head?)).getD "Right"

/-- The hands of a picture. -/
def Picture.observations (p : Picture) : Except LandmarkMiscount (List (Observation Float)) :=
  p.hands.zipIdx.mapM fun (points, i) => Observation.ofList points (p.label i)

namespace HandTracker

/-- A tracker that has not been opened. -/
def initial : HandTracker := ⟨none, 0⟩

/-- Why there is nothing to open, if so. -/
def unequipped? (c : TrackerConfig) (v : VisionStack) : Option TrackerFault :=
  match visionModules.find? v.missing.contains with
  | some name => some (.moduleMissing name)
  | none => if v.hasModel then none else some (.modelMissing c.model)

/-- Open the camera and load the model. -/
def turnOn (t : HandTracker) (c : TrackerConfig) (v : VisionStack) (now : Float) :
    Except TrackerFault HandTracker × List TrackerCall :=
  match unequipped? c v with
  | some fault => (.error fault, [])
  | none =>
    let camera := TrackerCall.openCamera c.cameraIndex
    if !v.deliversPictures then (.error (.cameraClosed c.cameraIndex), [camera, .releaseCamera])
    else
      match v.modelFault with
      | some reason => (.error (.modelRefused reason), [camera, .loadModel c, .releaseCamera])
      | none => (.ok { t with openSince := some now }, [camera, .loadModel c])

/-- The stamp of the next picture, taken at a time. -/
def stamp (t : HandTracker) (since now : Float) : Int :=
  let elapsed := ((now - since) * 1000.0).toInt64.toInt
  if elapsed < t.lastStamp + 1 then t.lastStamp + 1 else elapsed

/-- Find the hands in the next picture; none if there is no picture. -/
def read (t : HandTracker) (picture : Option Picture) (now : Float) :
    HandTracker × List TrackerCall × Except LandmarkMiscount (Option (List (Observation Float))) :=
  match t.openSince, picture with
  | some since, some p =>
    let stamp := t.stamp since now
    ({ t with lastStamp := stamp }, [.detect stamp], p.observations.map some)
  | _, _ => (t, [], .ok none)

/-- Close the model and release the camera. -/
def turnOff (t : HandTracker) : HandTracker × List TrackerCall :=
  match t.openSince with
  | some _ => ({ t with openSince := none }, [.closeModel, .releaseCamera])
  | none => (t, [])

end HandTracker

end RepoOrbit
