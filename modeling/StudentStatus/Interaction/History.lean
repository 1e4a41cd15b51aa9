import Mathlib.Data.List.Infix

/-!
# Histories of events

A system that every event takes to one next state. A history is the list of its events, latest
first, so that the histories of the earlier moments are its suffixes. A property that each event
keeps exactly under a condition holds throughout a history exactly when every event of it meets the
condition (`throughout_iff_everyEvent`).
-/

set_option autoImplicit false
set_option relaxedAutoImplicit false

namespace StudentStatus.Interaction

variable {E S : Type}

/-- The state after the events of a history. -/
def stateAfter (step : E → S → S) (start : S) : List E → S
  | [] => start
  | event :: earlier => step event (stateAfter step start earlier)

/-- A property of histories holds at every moment of a history. -/
def Throughout (property : List E → Prop) (history : List E) : Prop :=
  ∀ earlier, earlier <:+ history → property earlier

/-- Every event of a history meets a condition on the history before it. -/
def EveryEvent (condition : E → List E → Prop) (history : List E) : Prop :=
  ∀ event earlier, event :: earlier <:+ history → condition event earlier

theorem throughout_cons {property : List E → Prop} {event : E} {earlier : List E} :
    Throughout property (event :: earlier) ↔
      property (event :: earlier) ∧ Throughout property earlier := by
  simp [Throughout, List.suffix_cons_iff]

theorem everyEvent_nil {condition : E → List E → Prop} : EveryEvent condition [] :=
  fun _ _ hsuffix ↦ absurd (List.suffix_nil.mp hsuffix) (List.cons_ne_nil _ _)

theorem everyEvent_cons {condition : E → List E → Prop} {event : E} {earlier : List E} :
    EveryEvent condition (event :: earlier) ↔
      condition event earlier ∧ EveryEvent condition earlier := by
  constructor
  · exact fun h ↦ ⟨h event earlier List.suffix_rfl,
      fun event' earlier' hsuffix ↦ h event' earlier' (hsuffix.trans (List.suffix_cons _ _))⟩
  · rintro ⟨hevent, hearlier⟩ event' earlier' hsuffix
    rcases List.suffix_cons_iff.mp hsuffix with heq | hsuffix
    · obtain ⟨rfl, rfl⟩ := List.cons.inj heq
      exact hevent
    · exact hearlier event' earlier' hsuffix

/-- A property that each event keeps exactly under a condition. -/
theorem throughout_iff_everyEvent {property : List E → Prop} {condition : E → List E → Prop}
    (hnil : property [])
    (hstep : ∀ event earlier, Throughout property earlier →
      (property (event :: earlier) ↔ condition event earlier)) (history : List E) :
    Throughout property history ↔ EveryEvent condition history := by
  induction history with
  | nil =>
    refine iff_of_true (fun earlier hsuffix ↦ ?_) everyEvent_nil
    rw [List.suffix_nil.mp hsuffix]
    exact hnil
  | cons event earlier ih =>
    rw [throughout_cons, everyEvent_cons, ← ih]
    exact and_congr_left fun hearlier ↦ hstep event earlier hearlier

end StudentStatus.Interaction
