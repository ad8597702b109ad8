import Mathlib.Data.List.Basic

/-!
Runs of a system given by its step function `step : S → E → Option S`, where `none` is an event
that cannot happen in that state (a blocked call, a call that has returned). `Reaches` is the
set of states an initial state reaches; an invariant that holds initially and that every step
keeps holds of all of them, and running a concrete list of events shows, by evaluation, that a
schedule reaches a state.
-/

namespace Vitess

-- What a concrete run ends in, shown by evaluating the run.
theorem exists_of_any {α : Type} {P : α → Prop} [DecidablePred P] {o : Option α}
    (holds : o.any (fun a => decide (P a)) = true) : ∃ a, o = some a ∧ P a := by
  cases o with
  | none => cases holds
  | some a => exact ⟨a, rfl, of_decide_eq_true holds⟩

section
variable {S E : Type} (step : S → E → Option S) (init : S)

inductive Reaches : S → Prop where
  | init : Reaches init
  | step {s s' : S} {e : E} : Reaches s → step s e = some s' → Reaches s'

def runEvents : S → List E → Option S
  | s, [] => some s
  | s, e :: rest => (step s e).bind fun next => runEvents next rest

variable {step init}

theorem Reaches.inv {P : S → Prop} (initial : P init)
    (keeps : ∀ {s s' : S} {e : E}, P s → step s e = some s' → P s') {s : S}
    (reached : Reaches step init s) : P s := by
  induction reached with
  | init => exact initial
  | step _ stepped holds => exact keeps holds stepped

theorem Reaches.run {s t : S} {events : List E} (reached : Reaches step init s)
    (ran : runEvents step s events = some t) : Reaches step init t := by
  induction events generalizing s with
  | nil => cases ran; exact reached
  | cons e rest ih =>
    obtain ⟨next, stepped, ran⟩ := Option.bind_eq_some.mp ran
    exact ih (.step reached stepped) ran

end

end Vitess
