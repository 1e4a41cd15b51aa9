import Mathlib.Data.List.Basic
import Mathlib.Data.Sigma.Basic
import Mathlib.Tactic.SplitIfs

/-!
# Programs over external calls

A program is a tree of calls to its environment: each node asks one call and continues with the
reply, each leaf is a result. The same tree has several readings. `result` and `trace` run it
against an environment that answers every call, and return what the program returns and the calls
it made with their replies. `runIn` runs it in an environment that keeps a state, and `Uses` bounds
the calls that any run can make.

`result_bind` and `trace_bind` make both readings compositional. Two environments that agree on
the replies of one run give the same run (`run_congr_of_trace`), and two environments that agree on
every call a program uses give the same run (`run_congr_of_uses`). An environment whose state the
replies do not depend on gives the run of a stateless one (`runIn_of_stateless`).
-/

set_option autoImplicit false
set_option relaxedAutoImplicit false

namespace StudentStatus.Interaction

/-- A program that returns an `α` or stops with an `ε`, and that reaches its environment only
through calls `request : C`, each answered by a reply of type `R request`. -/
inductive Program (C : Type) (R : C → Type) (ε α : Type) : Type
  | done (outcome : Except ε α)
  | call (request : C) (next : R request → Program C R ε α)

/-- A call together with the reply it received. -/
abbrev Event (C : Type) (R : C → Type) := (request : C) × R request

namespace Program

variable {C : Type} {R : C → Type} {ε α β : Type}

/-! ### Sequencing -/

/-- Continue a program with its value; an error skips the continuation. -/
protected def bind : Program C R ε α → (α → Program C R ε β) → Program C R ε β
  | .done (.ok value), rest => rest value
  | .done (.error e), _ => .done (.error e)
  | .call request next, rest => .call request fun reply ↦ (next reply).bind rest

instance : Monad (Program C R ε) where
  pure value := .done (.ok value)
  bind := Program.bind

/-- Ask one call and return its reply. -/
def ask (request : C) : Program C R ε (R request) :=
  .call request fun reply ↦ .done (.ok reply)

/-- Stop with an error. -/
def raise (e : ε) : Program C R ε α := .done (.error e)

@[simp] theorem ask_bind (request : C) (rest : R request → Program C R ε β) :
    (ask request : Program C R ε (R request)) >>= rest = .call request rest := rfl

/-- Sequences of three programs may be grouped either way. -/
theorem bind_assoc {γ : Type} (program : Program C R ε α) (rest : α → Program C R ε β)
    (last : β → Program C R ε γ) :
    program >>= rest >>= last = program >>= fun value ↦ rest value >>= last := by
  induction program with
  | done outcome => cases outcome <;> rfl
  | call request next ih => exact congrArg (Program.call request) (funext ih)

/-- A program over other calls: each call becomes a program of its own, and the errors are those of
the wider program. -/
def interpret {C' ε' : Type} {R' : C' → Type}
    (translate : (request : C) → Program C' R' ε' (R request)) (fail : ε → ε') :
    Program C R ε α → Program C' R' ε' α
  | .done (.ok value) => .done (.ok value)
  | .done (.error e) => .done (.error (fail e))
  | .call request next => translate request >>= fun reply ↦ (next reply).interpret translate fail

/-- Run a program and catch what it throws. -/
def attempt : Program C R ε α → Program C R ε (Except ε α)
  | .done outcome => .done (.ok outcome)
  | .call request next => .call request fun reply ↦ (next reply).attempt

/-! ### Running against an environment -/

/-- What the program returns when the environment replies `answer request` to every call. -/
def result (answer : (request : C) → R request) : Program C R ε α → Except ε α
  | .done outcome => outcome
  | .call request next => (next (answer request)).result answer

/-- The calls that the program makes in that environment, in order, with their replies. -/
def trace (answer : (request : C) → R request) : Program C R ε α → List (Event C R)
  | .done _ => []
  | .call request next => ⟨request, answer request⟩ :: (next (answer request)).trace answer

section Run

variable (answer : (request : C) → R request)

@[simp] theorem result_pure (value : α) :
    (pure value : Program C R ε α).result answer = .ok value := rfl

@[simp] theorem result_ask (request : C) :
    (ask request : Program C R ε (R request)).result answer = .ok (answer request) := rfl

@[simp] theorem result_call (request : C) (next : R request → Program C R ε α) :
    (Program.call request next).result answer = (next (answer request)).result answer := rfl

@[simp] theorem trace_ask (request : C) :
    (ask request : Program C R ε (R request)).trace answer = [⟨request, answer request⟩] := rfl

@[simp] theorem trace_call (request : C) (next : R request → Program C R ε α) :
    (Program.call request next).trace answer =
      ⟨request, answer request⟩ :: (next (answer request)).trace answer := rfl

@[simp] theorem result_ite (condition : Prop) [Decidable condition]
    (first second : Program C R ε α) :
    (if condition then first else second).result answer =
      if condition then first.result answer else second.result answer :=
  apply_ite (result answer) condition first second

/-- The result of a sequence: an error of the first part is the error of the whole. -/
@[simp] theorem result_bind (program : Program C R ε α) (rest : α → Program C R ε β) :
    (program >>= rest).result answer =
      match program.result answer with
      | .ok value => (rest value).result answer
      | .error e => .error e := by
  induction program with
  | done outcome => cases outcome <;> rfl
  | call request next ih => exact ih (answer request)

/-- The trace of a sequence: the continuation runs only after a value. -/
@[simp] theorem trace_bind (program : Program C R ε α) (rest : α → Program C R ε β) :
    (program >>= rest).trace answer = program.trace answer ++
      match program.result answer with
      | .ok value => (rest value).trace answer
      | .error _ => [] := by
  induction program with
  | done outcome => cases outcome <;> rfl
  | call request next ih => exact congrArg (_ :: ·) (ih (answer request))

end Run

/-! ### Observing a run -/

section Observed

variable {ω : Type} (answer : (request : C) → R request) (observe : Event C R → Option ω)

/-- What an observer keeps of a run. -/
def observed (program : Program C R ε α) : List ω := (program.trace answer).filterMap observe

@[simp] theorem observed_pure (value : α) :
    (pure value : Program C R ε α).observed answer observe = [] := rfl

@[simp] theorem observed_call (request : C) (next : R request → Program C R ε α) :
    (Program.call request next).observed answer observe =
      (observe ⟨request, answer request⟩).toList ++
        (next (answer request)).observed answer observe := by
  unfold observed
  rw [trace_call]
  cases h : observe ⟨request, answer request⟩ <;> simp [h]

@[simp] theorem observed_bind (program : Program C R ε α) (rest : α → Program C R ε β) :
    (program >>= rest).observed answer observe = program.observed answer observe ++
      match program.result answer with
      | .ok value => (rest value).observed answer observe
      | .error _ => [] := by
  unfold observed
  rw [trace_bind, List.filterMap_append]
  cases program.result answer <;> rfl

@[simp] theorem observed_ite (condition : Prop) [Decidable condition]
    (first second : Program C R ε α) :
    (if condition then first else second).observed answer observe =
      if condition then first.observed answer observe else second.observed answer observe :=
  apply_ite (observed answer observe) condition first second

end Observed

/-- Two environments that give the replies of one run give the same run. -/
theorem run_congr_of_trace {answer other : (request : C) → R request} (program : Program C R ε α)
    (hagree : ∀ event ∈ program.trace answer, other event.1 = event.2) :
    program.result other = program.result answer ∧ program.trace other = program.trace answer := by
  induction program with
  | done outcome => exact ⟨rfl, rfl⟩
  | call request next ih =>
    have hhead : other request = answer request := hagree _ List.mem_cons_self
    have htail := ih (answer request) fun event hevent ↦
      hagree event (List.mem_cons_of_mem _ hevent)
    simp only [result_call, trace_call, hhead]
    exact ⟨htail.1, by rw [htail.2]⟩

/-! ### The calls a program can make -/

/-- Every call of every run of the program is allowed, whatever the replies are. -/
def Uses (allowed : C → Prop) : Program C R ε α → Prop
  | .done _ => True
  | .call request next => allowed request ∧ ∀ reply, (next reply).Uses allowed

variable {allowed : C → Prop}

@[simp] theorem uses_ask (request : C) :
    (ask request : Program C R ε (R request)).Uses allowed ↔ allowed request :=
  ⟨fun h ↦ h.1, fun h ↦ ⟨h, fun _ ↦ trivial⟩⟩

theorem uses_bind {program : Program C R ε α} {rest : α → Program C R ε β}
    (hprogram : program.Uses allowed) (hrest : ∀ value, (rest value).Uses allowed) :
    (program >>= rest).Uses allowed := by
  induction program with
  | done outcome =>
    cases outcome with
    | ok value => exact hrest value
    | error e => trivial
  | call request next ih => exact ⟨hprogram.1, fun reply ↦ ih reply (hprogram.2 reply)⟩

theorem uses_ite {condition : Prop} [Decidable condition] {first second : Program C R ε α}
    (hfirst : first.Uses allowed) (hsecond : second.Uses allowed) :
    (if condition then first else second).Uses allowed := by
  split_ifs
  · exact hfirst
  · exact hsecond

theorem Uses.mono {wider : C → Prop} {program : Program C R ε α} (h : program.Uses allowed)
    (hle : ∀ request, allowed request → wider request) : program.Uses wider := by
  induction program with
  | done outcome => trivial
  | call request next ih => exact ⟨hle _ h.1, fun reply ↦ ih reply (h.2 reply)⟩

/-- The trace of a run holds allowed calls only. -/
theorem Uses.of_mem_trace {answer : (request : C) → R request} {program : Program C R ε α}
    (h : program.Uses allowed) {event : Event C R} (hevent : event ∈ program.trace answer) :
    allowed event.1 ∧ event.2 = answer event.1 := by
  induction program with
  | done outcome => cases hevent
  | call request next ih =>
    rcases List.mem_cons.mp hevent with rfl | htail
    · exact ⟨h.1, rfl⟩
    · exact ih (answer request) (h.2 _) htail

/-- An observer that ignores the allowed calls sees nothing. -/
theorem Uses.observed_eq_nil {answer : (request : C) → R request} {ω : Type}
    {observe : Event C R → Option ω} {program : Program C R ε α} (h : program.Uses allowed)
    (hignored : ∀ event : Event C R, allowed event.1 → observe event = none) :
    program.observed answer observe = [] :=
  List.filterMap_eq_nil_iff.mpr fun event hevent ↦ hignored event (h.of_mem_trace hevent).1

/-- Two environments that agree on every call the program uses give the same run. -/
theorem run_congr_of_uses {answer other : (request : C) → R request} {program : Program C R ε α}
    (h : program.Uses allowed)
    (hagree : ∀ request, allowed request → other request = answer request) :
    program.result other = program.result answer ∧ program.trace other = program.trace answer :=
  run_congr_of_trace program fun event hevent ↦ by
    obtain ⟨hallowed, hreply⟩ := h.of_mem_trace hevent
    rw [hagree _ hallowed, hreply]

/-! ### Environments with a state -/

section Stateful

variable {σ : Type} (env : (request : C) → σ → R request × σ)

/-- Run the program in an environment whose replies depend on a state that every call may change:
what the program returns, and the state it leaves. -/
def runIn : Program C R ε α → σ → Except ε α × σ
  | .done outcome, state => (outcome, state)
  | .call request next, state => (next (env request state).1).runIn (env request state).2

@[simp] theorem runIn_pure (value : α) (state : σ) :
    (pure value : Program C R ε α).runIn env state = (.ok value, state) := rfl

@[simp] theorem runIn_raise (e : ε) (state : σ) :
    (raise e : Program C R ε α).runIn env state = (.error e, state) := rfl

@[simp] theorem runIn_ask (request : C) (state : σ) :
    (ask request : Program C R ε (R request)).runIn env state =
      (.ok (env request state).1, (env request state).2) := rfl

@[simp] theorem runIn_call (request : C) (next : R request → Program C R ε α) (state : σ) :
    (Program.call request next).runIn env state =
      (next (env request state).1).runIn env (env request state).2 := rfl

@[simp] theorem runIn_ite (condition : Prop) [Decidable condition]
    (first second : Program C R ε α) (state : σ) :
    (if condition then first else second).runIn env state =
      if condition then first.runIn env state else second.runIn env state := by
  split_ifs <;> rfl

/-- The run of a sequence: the continuation starts in the state that the first part leaves. -/
@[simp] theorem runIn_bind (program : Program C R ε α) (rest : α → Program C R ε β) (state : σ) :
    (program >>= rest).runIn env state =
      match program.runIn env state with
      | (.ok value, left) => (rest value).runIn env left
      | (.error e, left) => (.error e, left) := by
  induction program generalizing state with
  | done outcome => cases outcome <;> rfl
  | call request next ih => exact ih (env request state).1 (env request state).2

/-- What every call keeps, a run keeps. -/
theorem runIn_keeps {keeps : σ → Prop}
    (henv : ∀ request state, keeps state → keeps (env request state).2) (program : Program C R ε α)
    {state : σ} (h : keeps state) : keeps (program.runIn env state).2 := by
  induction program generalizing state with
  | done outcome => exact h
  | call request next ih => exact ih _ (henv request state h)

/-- A program over other calls runs as before, when the programs of its calls do what its own
environment does. -/
theorem runIn_interpret {C' ε' σ' : Type} {R' : C' → Type}
    {env' : (request : C') → σ' → R' request × σ'}
    {translate : (request : C) → Program C' R' ε' (R request)} {fail : ε → ε'} (embed : σ → σ')
    (htranslate : ∀ request state, (translate request).runIn env' (embed state) =
      (.ok (env request state).1, embed (env request state).2))
    (program : Program C R ε α) (state : σ) :
    (program.interpret translate fail).runIn env' (embed state) =
      ((program.runIn env state).1.mapError fail, embed (program.runIn env state).2) := by
  induction program generalizing state with
  | done outcome => cases outcome <;> rfl
  | call request next ih =>
    rw [interpret, runIn_bind, htranslate, runIn_call]
    exact ih _ _

/-- An environment that replies like `answer` in every state, and whose state logs what an observer
keeps, gives the same run as `answer`. -/
theorem runIn_of_stateless {env : (request : C) → σ → R request × σ} {ω : Type}
    {answer : (request : C) → R request} {observe : Event C R → Option ω} (log : σ → List ω)
    (hreply : ∀ request state, (env request state).1 = answer request)
    (hlog : ∀ request state,
      log (env request state).2 = log state ++ (observe ⟨request, answer request⟩).toList)
    (program : Program C R ε α) (state : σ) :
    (program.runIn env state).1 = program.result answer ∧
      log (program.runIn env state).2 = log state ++ program.observed answer observe := by
  induction program generalizing state with
  | done outcome => exact ⟨rfl, (List.append_nil _).symm⟩
  | call request next ih =>
    obtain ⟨hresult, hlogged⟩ := ih (answer request) (env request state).2
    rw [runIn_call, hreply, result_call, observed_call]
    exact ⟨hresult, by rw [hlogged, hlog, List.append_assoc]⟩

end Stateful

end Program

end StudentStatus.Interaction
