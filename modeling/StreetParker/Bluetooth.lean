import Mathlib.Data.List.Basic

/-!
# StreetParker.Bluetooth

The check for a hands-free or car connection, and the background fetch that
asks for it.  The completion is called inside the loop over the outputs of the
current route, so what a caller hears is one answer for each output.

* `checkForBluetoothConnection` — the calls of its completion, in order;
* `answersOnce_iff` — when that is one call.
-/

namespace StreetParker

/-- `AVAudioSession.Port`, as far as the check tells ports apart. -/
inductive Port where
  | bluetoothHFP
  | carAudio
  | other (rawValue : String)
deriving DecidableEq, Repr

/-- The port types the check is after. -/
def Port.IsCar (port : Port) : Prop := port = .bluetoothHFP ∨ port = .carAudio

instance (port : Port) : Decidable port.IsCar := inferInstanceAs (Decidable (_ ∨ _))

/-- `UIBackgroundFetchResult`. -/
inductive BackgroundFetchResult where
  | newData
  | noData
  | failed
deriving DecidableEq, Repr

namespace Dataservice

/-- The loop over the outputs. -/
def checkOutputs : List Port → List Bool
  | [] => []
  | portType :: rest =>
      (if portType = .bluetoothHFP ∨ portType = .carAudio then true else false) ::
        checkOutputs rest

/-- The calls of `completion`; `configured` is how the audio session took its
category and its activation, and an error is only printed. -/
def checkForBluetoothConnection {ε : Type*} (configured : Except ε Unit) (outputs : List Port) :
    List Bool :=
  match configured with
  | .ok () => checkOutputs outputs
  | .error _ => checkOutputs outputs

end Dataservice

namespace AppDelegate

/-- `application(_:performFetchWithCompletionHandler:)`: the calls of the
system's handler. -/
def performFetchWithCompletionHandler {ε : Type*} (configured : Except ε Unit)
    (outputs : List Port) : List BackgroundFetchResult :=
  (Dataservice.checkForBluetoothConnection configured outputs).map fun _ => .newData

end AppDelegate

/-! ## how often it answers -/

/-- One answer for each output, whatever the configuration did. -/
theorem checkForBluetoothConnection_eq {ε : Type*} (configured : Except ε Unit)
    (outputs : List Port) :
    Dataservice.checkForBluetoothConnection configured outputs =
      outputs.map fun port => decide port.IsCar := by
  have hloop : Dataservice.checkOutputs outputs = outputs.map fun port => decide port.IsCar := by
    induction outputs with
    | nil => rfl
    | cons port rest ih =>
        have hport : (if port = .bluetoothHFP ∨ port = .carAudio then true else false) =
            decide port.IsCar := by
          cases port <;> rfl
        rw [Dataservice.checkOutputs, hport, ih, List.map_cons]
  cases configured <;> exact hloop

/-- What is asked of a check: one answer, which says whether some output is the
car's, and one call of the system's handler. -/
def AnswersOnce {ε : Type*} (configured : Except ε Unit) (outputs : List Port) : Prop :=
  Dataservice.checkForBluetoothConnection configured outputs =
      [decide (∃ port ∈ outputs, port.IsCar)] ∧
    (AppDelegate.performFetchWithCompletionHandler configured outputs).length = 1

/-- **How often the check answers.**  For every route and however the audio
session took its configuration, it answers once, and rightly, exactly when the
route has one output. -/
theorem answersOnce_iff {ε : Type*} (configured : Except ε Unit) (outputs : List Port) :
    AnswersOnce configured outputs ↔ outputs.length = 1 := by
  unfold AnswersOnce AppDelegate.performFetchWithCompletionHandler
  rw [checkForBluetoothConnection_eq, List.length_map, List.length_map]
  refine and_iff_right_of_imp fun h => ?_
  obtain ⟨port, rfl⟩ := List.length_eq_one_iff.mp h
  simp

/-- A route without outputs gets no answer, and one with two gets two. -/
theorem not_answersOnce :
    ¬AnswersOnce (.ok () : Except String Unit) [] ∧
      ¬AnswersOnce (.ok () : Except String Unit) [.bluetoothHFP, .other "Speaker"] := by
  constructor <;> exact fun h => absurd h.1 (by decide)

end StreetParker
