import StudentStatus.Interaction.History
import StudentStatus.Interaction.Program

/-!
# Programs side by side

Programs that share one environment with a state. A system runs a program for each of its tags, one
call at a time, in any order with the calls of the others and with changes that no program makes;
a restart loses the programs in progress. `Reaches` holds of what the system can have gone through:
the moments of its past, latest first, and the programs in progress.

`Safe` is a judgement about one program. Whatever the others do, as long as they keep an invariant
of the past, every call of the program keeps the invariant, and the program ends as it should. It is
proved along the program (`Safe.bind`), and programs that are safe one by one are safe together
(`Guarantees.reaches`). The run of a program in which no other takes part is one of the runs
(`Reaches.runIn`).
-/

set_option autoImplicit false
set_option relaxedAutoImplicit false

namespace StudentStatus.Interaction

variable {τ C ε α β σ : Type} {R : C → Type}

/-- A state, by the program whose call led to it. -/
structure Moment (τ σ : Type) where
  actor : Option τ
  state : σ

/-- Nothing of this part of the past is due to the program with the tag. -/
def NotBy (tag : τ) (past : List (Moment τ σ)) : Prop := ∀ moment ∈ past, moment.actor ≠ some tag

theorem notBy_nil (tag : τ) : NotBy tag ([] : List (Moment τ σ)) := fun _ hmem ↦ by cases hmem

theorem NotBy.cons_none {tag : τ} {past : List (Moment τ σ)} (h : NotBy tag past) (state : σ) :
    NotBy tag (⟨none, state⟩ :: past) := List.forall_mem_cons.mpr ⟨nofun, h⟩

theorem notBy_append {tag : τ} {newer past : List (Moment τ σ)} :
    NotBy tag (newer ++ past) ↔ NotBy tag newer ∧ NotBy tag past := List.forall_mem_append

theorem notBy_singleton {tag : τ} {moment : Moment τ σ} :
    NotBy tag [moment] ↔ moment.actor ≠ some tag := List.forall_mem_singleton

/-- The fact held at a moment of the past that is not before `since`. -/
def Meanwhile (since past : List (Moment τ σ)) (fact : σ → Prop) : Prop :=
  ∃ newer moment earlier, past = newer ++ moment :: earlier ∧ since <:+ moment :: earlier ∧
    fact moment.state

namespace Meanwhile

variable {since past : List (Moment τ σ)} {fact : σ → Prop}

theorem append (h : Meanwhile since past fact) (newer : List (Moment τ σ)) :
    Meanwhile since (newer ++ past) fact := by
  obtain ⟨between, moment, earlier, rfl, hsince, hfact⟩ := h
  exact ⟨newer ++ between, moment, earlier, (List.append_assoc _ _ _).symm, hsince, hfact⟩

theorem of_cons {moment : Moment τ σ} {earlier : List (Moment τ σ)}
    (hsince : since <:+ moment :: earlier) (hfact : fact moment.state) :
    Meanwhile since (moment :: earlier) fact := ⟨[], moment, earlier, rfl, hsince, hfact⟩

theorem exists_mem (h : Meanwhile since past fact) : ∃ moment ∈ past, fact moment.state := by
  obtain ⟨newer, moment, earlier, rfl, -, hfact⟩ := h
  exact ⟨moment, List.mem_append_right _ List.mem_cons_self, hfact⟩

theorem mono {wider : σ → Prop} (h : Meanwhile since past fact)
    (hle : ∀ state, fact state → wider state) : Meanwhile since past wider := by
  obtain ⟨newer, moment, earlier, hpast, hsince, hfact⟩ := h
  exact ⟨newer, moment, earlier, hpast, hsince, hle _ hfact⟩

end Meanwhile

/-- The fact holds now. -/
def Now (past : List (Moment τ σ)) (fact : σ → Prop) : Prop :=
  ∃ moment earlier, past = moment :: earlier ∧ fact moment.state

theorem now_cons {moment : Moment τ σ} {earlier : List (Moment τ σ)} {fact : σ → Prop} :
    Now (moment :: earlier) fact ↔ fact moment.state := by
  constructor
  · rintro ⟨_, _, heq, hfact⟩
    obtain ⟨rfl, rfl⟩ := List.cons.inj heq
    exact hfact
  · exact fun hfact ↦ ⟨moment, earlier, rfl, hfact⟩

/-- Every step of the past is one that its actor may take. -/
def Linked (link : Option τ → σ → σ → Prop) : List (Moment τ σ) → Prop
  | later :: moment :: earlier =>
    link later.actor moment.state later.state ∧ Linked link (moment :: earlier)
  | _ => True

theorem Linked.mono {link wider : Option τ → σ → σ → Prop} {past : List (Moment τ σ)}
    (h : Linked link past) (hle : ∀ actor before after, link actor before after →
      wider actor before after) : Linked wider past := by
  induction past with
  | nil => trivial
  | cons later past ih =>
    cases past with
    | nil => trivial
    | cons moment earlier => exact ⟨hle _ _ _ h.1, ih h.2⟩

theorem Linked.of_append {link : Option τ → σ → σ → Prop} {newer past : List (Moment τ σ)}
    (h : Linked link (newer ++ past)) : Linked link past := by
  induction newer with
  | nil => exact h
  | cons later newer ih =>
    cases hpast : newer ++ past with
    | nil =>
      rw [(List.append_eq_nil_iff.mp hpast).2]
      trivial
    | cons moment earlier =>
      rw [List.cons_append, hpast] at h
      exact ih (hpast ▸ h.2)

/-- What every step of some actors keeps stays true while only they act. -/
theorem Linked.now {link : Option τ → σ → σ → Prop} {newer past : List (Moment τ σ)}
    (h : Linked link (newer ++ past)) (allowed : Option τ → Prop)
    (hnewer : ∀ moment ∈ newer, allowed moment.actor) {fact : σ → Prop}
    (hfact : ∀ actor before after, allowed actor → link actor before after → fact before →
      fact after) (hnow : Now past fact) : Now (newer ++ past) fact := by
  induction newer with
  | nil => exact hnow
  | cons later newer ih =>
    have hearlier : Linked link (newer ++ past) := by
      cases hpast : newer ++ past with
      | nil => trivial
      | cons moment earlier =>
        rw [List.cons_append, hpast] at h
        exact h.2
    obtain ⟨moment, earlier, hpast, hmoment⟩ :=
      ih hearlier fun moment hmem ↦ hnewer moment (List.mem_cons_of_mem _ hmem)
    rw [List.cons_append, hpast] at h ⊢
    exact now_cons.mpr (hfact _ _ _ (hnewer later List.mem_cons_self) h.1 hmoment)

/-- A past of which every part is good and every step is one that its actor may take. -/
structure Orderly (good : List (Moment τ σ) → Prop) (link : Option τ → σ → σ → Prop)
    (past : List (Moment τ σ)) : Prop where
  good : Throughout good past
  linked : Linked link past

namespace Orderly

variable {good : List (Moment τ σ) → Prop} {link : Option τ → σ → σ → Prop}

theorem singleton (moment : Moment τ σ) (hnil : good []) (hgood : good [moment]) :
    Orderly good link [moment] where
  good := throughout_cons.mpr ⟨hgood, fun earlier hsuffix ↦ by
    rw [List.suffix_nil.mp hsuffix]
    exact hnil⟩
  linked := trivial

theorem cons {moment later : Moment τ σ} {earlier : List (Moment τ σ)}
    (h : Orderly good link (moment :: earlier)) (hgood : good (later :: moment :: earlier))
    (hlink : link later.actor moment.state later.state) :
    Orderly good link (later :: moment :: earlier) where
  good := throughout_cons.mpr ⟨hgood, h.good⟩
  linked := ⟨hlink, h.linked⟩

theorem tail {moment : Moment τ σ} {earlier : List (Moment τ σ)}
    (h : Orderly good link (moment :: earlier)) : Orderly good link earlier where
  good := (throughout_cons.mp h.good).2
  linked := Linked.of_append (List.singleton_append ▸ h.linked)

theorem now_good {past : List (Moment τ σ)} (h : Orderly good link past) : good past :=
  h.good past List.suffix_rfl

end Orderly

/-! ### Systems -/

/-- A program for every tag, the answers that its calls may receive with the state that they leave,
the states in which the system starts, the changes that no program makes, and what a restart leaves
of a state. -/
structure System (τ C : Type) (R : C → Type) (ε α σ : Type) where
  body : τ → Program C R ε α
  answers : τ → (request : C) → σ → R request → σ → Prop
  start : σ → Prop
  drift : σ → σ → Prop
  restart : σ → σ → Prop

/-- A program in progress: what is left of it, and the past at its start. -/
structure Running (τ C : Type) (R : C → Type) (ε α σ : Type) where
  tag : τ
  since : List (Moment τ σ)
  rest : Program C R ε α

/-- The past and the programs in progress that a system can have. A tag is used once. -/
inductive Reaches (system : System τ C R ε α σ) :
    List (Moment τ σ) → List (Running τ C R ε α σ) → Prop
  | start {state : σ} (hstart : system.start state) : Reaches system [⟨none, state⟩] []
  | spawn {moment : Moment τ σ} {earlier : List (Moment τ σ)}
      {running : List (Running τ C R ε α σ)} (h : Reaches system (moment :: earlier) running)
      (tag : τ) (hpast : NotBy tag (moment :: earlier))
      (hrunning : ∀ other ∈ running, other.tag ≠ tag) :
      Reaches system (moment :: earlier) (⟨tag, moment :: earlier, system.body tag⟩ :: running)
  | call {moment : Moment τ σ} {earlier since : List (Moment τ σ)}
      {before after : List (Running τ C R ε α σ)} {tag : τ} {request : C}
      {next : R request → Program C R ε α} {reply : R request} {state : σ}
      (h : Reaches system (moment :: earlier)
        (before ++ ⟨tag, since, .call request next⟩ :: after))
      (hanswer : system.answers tag request moment.state reply state) :
      Reaches system (⟨some tag, state⟩ :: moment :: earlier)
        (before ++ ⟨tag, since, next reply⟩ :: after)
  | drift {moment : Moment τ σ} {earlier : List (Moment τ σ)}
      {running : List (Running τ C R ε α σ)} {state : σ}
      (h : Reaches system (moment :: earlier) running) (hdrift : system.drift moment.state state) :
      Reaches system (⟨none, state⟩ :: moment :: earlier) running
  | restart {moment : Moment τ σ} {earlier : List (Moment τ σ)}
      {running : List (Running τ C R ε α σ)} {state : σ}
      (h : Reaches system (moment :: earlier) running)
      (hrestart : system.restart moment.state state) :
      Reaches system (⟨none, state⟩ :: moment :: earlier) []

/-- There is a last moment. -/
theorem Reaches.exists_cons {system : System τ C R ε α σ} {past : List (Moment τ σ)}
    {running : List (Running τ C R ε α σ)} (h : Reaches system past running) :
    ∃ moment earlier, past = moment :: earlier := by
  cases h with
  | start hstart => exact ⟨_, _, rfl⟩
  | spawn h tag hpast hrunning => exact ⟨_, _, rfl⟩
  | call h hanswer => exact ⟨_, _, rfl⟩
  | drift h hdrift => exact ⟨_, _, rfl⟩
  | restart h hrestart => exact ⟨_, _, rfl⟩

/-! ### A program that nobody interrupts -/

section Alone

variable (env : (request : C) → σ → R request × σ) (tag : τ)

/-- What the calls of a program leave when it runs alone in an environment, the last one first. -/
def momentsAlone : Program C R ε α → σ → List (Moment τ σ)
  | .done _, _ => []
  | .call request next, state =>
    momentsAlone (next (env request state).1) (env request state).2 ++
      [⟨some tag, (env request state).2⟩]

variable {env tag} in
theorem actor_of_mem_momentsAlone {program : Program C R ε α} {state : σ} {later : Moment τ σ}
    (hmem : later ∈ momentsAlone env tag program state) : later.actor = some tag := by
  induction program generalizing state with
  | done outcome => cases hmem
  | call request next ih =>
    rcases List.mem_append.mp hmem with hmem | hmem
    · exact ih _ hmem
    · rw [List.mem_singleton.mp hmem]

theorem notBy_momentsAlone (program : Program C R ε α) (state : σ) {other : τ} (hne : other ≠ tag) :
    NotBy other (momentsAlone env tag program state) := by
  intro later hmem heq
  exact hne (Option.some.inj (heq.symm.trans (actor_of_mem_momentsAlone hmem)))

theorem momentsAlone_call_append (request : C) (next : R request → Program C R ε α) (state : σ)
    (past : List (Moment τ σ)) : momentsAlone env tag (.call request next) state ++ past =
      momentsAlone env tag (next (env request state).1) (env request state).2 ++
        ⟨some tag, (env request state).2⟩ :: past := by
  rw [momentsAlone, List.append_assoc, List.singleton_append]

/-- The last moment has what the program leaves. -/
theorem now_momentsAlone (program : Program C R ε α) (moment : Moment τ σ)
    (earlier : List (Moment τ σ)) :
    Now (momentsAlone env tag program moment.state ++ moment :: earlier)
      (· = (program.runIn env moment.state).2) := by
  induction program generalizing moment earlier with
  | done outcome => exact now_cons.mpr rfl
  | call request next ih =>
    rw [momentsAlone_call_append]
    exact ih _ ⟨some tag, (env request moment.state).2⟩ (moment :: earlier)

end Alone

/-! ### One program among others -/

section Safety

variable (answers : (request : C) → σ → R request → σ → Prop) (inv : List (Moment τ σ) → Prop)
  (tag : τ)

/-- The others cannot end the truth of an assertion about the past. -/
def Stable (assertion : List (Moment τ σ) → Prop) : Prop :=
  ∀ past newer, assertion past → NotBy tag newer → inv (newer ++ past) → assertion (newer ++ past)

/-- Whatever the others do before each call, the call keeps the invariant, and the program ends as
`post` says. -/
def Safe (post : Except ε α → List (Moment τ σ) → Prop) :
    Program C R ε α → List (Moment τ σ) → Prop
  | .done outcome, past => post outcome past
  | .call request next, past => ∀ newer moment earlier reply state,
    newer ++ past = moment :: earlier → NotBy tag newer → inv (moment :: earlier) →
    answers request moment.state reply state →
      inv (⟨some tag, state⟩ :: moment :: earlier) ∧
        Safe post (next reply) (⟨some tag, state⟩ :: moment :: earlier)

variable {answers inv tag} {post : Except ε α → List (Moment τ σ) → Prop}

namespace Safe

/-- A program stays safe while the others go on. -/
theorem later (hstable : ∀ outcome, Stable inv tag (post outcome)) {program : Program C R ε α}
    {past newer : List (Moment τ σ)} (h : Safe answers inv tag post program past)
    (hnewer : NotBy tag newer) (hinv : inv (newer ++ past)) :
    Safe answers inv tag post program (newer ++ past) := by
  cases program with
  | done outcome => exact hstable outcome past newer h hnewer hinv
  | call request next =>
    intro newest moment earlier reply state hpast hnewest
    rw [← List.append_assoc] at hpast
    exact h (newest ++ newer) moment earlier reply state hpast (notBy_append.mpr ⟨hnewest, hnewer⟩)

/-- A sequence is safe when its first part establishes what the second part needs. -/
theorem bind (mid : Except ε α → List (Moment τ σ) → Prop)
    {post : Except ε β → List (Moment τ σ) → Prop} {program : Program C R ε α}
    {rest : α → Program C R ε β} {past : List (Moment τ σ)}
    (h : Safe answers inv tag mid program past)
    (hvalue : ∀ value past, mid (.ok value) past → Safe answers inv tag post (rest value) past)
    (herror : ∀ e past, mid (.error e) past → post (.error e) past) :
    Safe answers inv tag post (program >>= rest) past := by
  induction program generalizing past with
  | done outcome =>
    cases outcome with
    | ok value => exact hvalue value past h
    | error e => exact herror e past h
  | call request next ih =>
    intro newer moment earlier reply state hpast hnewer hinv hanswer
    obtain ⟨hkept, hnext⟩ := h newer moment earlier reply state hpast hnewer hinv hanswer
    exact ⟨hkept, ih reply hnext⟩

theorem mono {wider : Except ε α → List (Moment τ σ) → Prop} {program : Program C R ε α}
    {past : List (Moment τ σ)} (h : Safe answers inv tag post program past)
    (hle : ∀ outcome past, post outcome past → wider outcome past) :
    Safe answers inv tag wider program past := by
  induction program generalizing past with
  | done outcome => exact hle outcome past h
  | call request next ih =>
    intro newer moment earlier reply state hpast hnewer hinv hanswer
    obtain ⟨hkept, hnext⟩ := h newer moment earlier reply state hpast hnewer hinv hanswer
    exact ⟨hkept, ih reply hnext⟩

/-- What a program throws may be caught. -/
theorem attempt {post : Except ε (Except ε α) → List (Moment τ σ) → Prop}
    {program : Program C R ε α} {past : List (Moment τ σ)}
    (h : Safe answers inv tag (fun outcome ↦ post (.ok outcome)) program past) :
    Safe answers inv tag post program.attempt past := by
  induction program generalizing past with
  | done outcome => exact h
  | call request next ih =>
    intro newer moment earlier reply state hpast hnewer hinv hanswer
    obtain ⟨hkept, hnext⟩ := h newer moment earlier reply state hpast hnewer hinv hanswer
    exact ⟨hkept, ih reply hnext⟩

/-- What no step can end still holds at the end of a program. -/
theorem keep {assertion : List (Moment τ σ) → Prop}
    (hlasting : ∀ past newer, assertion past → inv (newer ++ past) → assertion (newer ++ past))
    {program : Program C R ε α} {past : List (Moment τ σ)}
    (h : Safe answers inv tag post program past) (hassertion : assertion past) :
    Safe answers inv tag (fun outcome past ↦ post outcome past ∧ assertion past) program past := by
  induction program generalizing past with
  | done outcome => exact ⟨h, hassertion⟩
  | call request next ih =>
    intro newer moment earlier reply state hpast hnewer hinv hanswer
    obtain ⟨hkept, hnext⟩ := h newer moment earlier reply state hpast hnewer hinv hanswer
    refine ⟨hkept, ih reply hnext ?_⟩
    have heq : (⟨some tag, state⟩ :: newer) ++ past = ⟨some tag, state⟩ :: moment :: earlier :=
      congrArg (_ :: ·) hpast
    rw [← heq] at hkept ⊢
    exact hlasting past _ hassertion hkept

/-- A safe program that runs alone keeps the invariant and ends as it should. -/
theorem runIn (env : (request : C) → σ → R request × σ) (keeps : σ → Prop)
    (henv : ∀ request state, keeps state →
      answers request state (env request state).1 (env request state).2 ∧
        keeps (env request state).2)
    {program : Program C R ε α} {moment : Moment τ σ} {earlier : List (Moment τ σ)}
    (h : Safe answers inv tag post program (moment :: earlier)) (hinv : inv (moment :: earlier))
    (hmoment : keeps moment.state) :
    inv (momentsAlone env tag program moment.state ++ moment :: earlier) ∧
      post (program.runIn env moment.state).1
        (momentsAlone env tag program moment.state ++ moment :: earlier) := by
  induction program generalizing moment earlier with
  | done outcome => exact ⟨hinv, h⟩
  | call request next ih =>
    obtain ⟨hanswer, hkeeps⟩ := henv request moment.state hmoment
    obtain ⟨hkept, hnext⟩ := h [] moment earlier _ _ rfl (notBy_nil tag) hinv hanswer
    rw [momentsAlone_call_append]
    exact ih _ hnext hkept hkeeps

/-- A call is safe when its answer keeps the invariant and establishes the assertion. -/
theorem ask {request : C} {post : Except ε (R request) → List (Moment τ σ) → Prop}
    {past : List (Moment τ σ)}
    (h : ∀ newer moment earlier reply state, newer ++ past = moment :: earlier → NotBy tag newer →
      inv (moment :: earlier) → answers request moment.state reply state →
      inv (⟨some tag, state⟩ :: moment :: earlier) ∧
        post (.ok reply) (⟨some tag, state⟩ :: moment :: earlier)) :
    Safe answers inv tag post (Program.ask request) past := h

/-- A program stays safe over other calls, when each of its calls becomes a program that
establishes all that the answers to the call establish. -/
theorem interpret {C' ε' : Type} {R' : C' → Type}
    {answers' : (request : C') → σ → R' request → σ → Prop}
    {translate : (request : C) → Program C' R' ε' (R request)} {fail : ε → ε'}
    (htranslate : ∀ request (mid : R request → List (Moment τ σ) → Prop) past,
      (∀ newer moment earlier reply state, newer ++ past = moment :: earlier → NotBy tag newer →
        inv (moment :: earlier) → answers request moment.state reply state →
        inv (⟨some tag, state⟩ :: moment :: earlier) ∧
          mid reply (⟨some tag, state⟩ :: moment :: earlier)) →
      Safe answers' inv tag (fun outcome past ↦ ∃ reply, outcome = .ok reply ∧ mid reply past)
        (translate request) past)
    {post' : Except ε' α → List (Moment τ σ) → Prop} {program : Program C R ε α}
    {past : List (Moment τ σ)} (h : Safe answers inv tag post program past)
    (hvalue : ∀ value past, post (.ok value) past → post' (.ok value) past)
    (herror : ∀ e past, post (.error e) past → post' (.error (fail e)) past) :
    Safe answers' inv tag post' (program.interpret translate fail) past := by
  induction program generalizing past with
  | done outcome =>
    cases outcome with
    | ok value => exact hvalue value past h
    | error e => exact herror e past h
  | call request next ih =>
    have hcall := htranslate request
      (fun reply past ↦ Safe answers inv tag post (next reply) past) past h
    refine Safe.bind _ hcall ?_ ?_
    · rintro value past ⟨reply, heq, hnext⟩
      cases heq
      exact ih value hnext
    · rintro e past ⟨_, heq, -⟩
      cases heq

end Safe

end Safety

/-! ### All programs together -/

/-- Every part of the system keeps the invariant of the past, and the program of every tag is safe
from a past in which it had no part. -/
structure Guarantees (system : System τ C R ε α σ) (inv : List (Moment τ σ) → Prop)
    (post : τ → List (Moment τ σ) → Except ε α → List (Moment τ σ) → Prop) : Prop where
  start : ∀ state, system.start state → inv [⟨none, state⟩]
  drift : ∀ moment earlier state, inv (moment :: earlier) → system.drift moment.state state →
    inv (⟨none, state⟩ :: moment :: earlier)
  restart : ∀ moment earlier state, inv (moment :: earlier) → system.restart moment.state state →
    inv (⟨none, state⟩ :: moment :: earlier)
  body : ∀ tag moment earlier, inv (moment :: earlier) → NotBy tag (moment :: earlier) →
    Safe (system.answers tag) inv tag (post tag (moment :: earlier)) (system.body tag)
      (moment :: earlier)
  stable : ∀ tag since outcome, Stable inv tag (post tag since outcome)

section Together

variable {system : System τ C R ε α σ} {inv : List (Moment τ σ) → Prop}
  {post : τ → List (Moment τ σ) → Except ε α → List (Moment τ σ) → Prop}

/-- What a program in progress has before it. -/
def Running.IsSafe (system : System τ C R ε α σ) (inv : List (Moment τ σ) → Prop)
    (post : τ → List (Moment τ σ) → Except ε α → List (Moment τ σ) → Prop)
    (running : Running τ C R ε α σ) (past : List (Moment τ σ)) : Prop :=
  Safe (system.answers running.tag) inv running.tag (post running.tag running.since) running.rest
    past

theorem Guarantees.later (h : Guarantees system inv post) {running : Running τ C R ε α σ}
    {past newer : List (Moment τ σ)} (hsafe : running.IsSafe system inv post past)
    (hnewer : NotBy running.tag newer) (hinv : inv (newer ++ past)) :
    running.IsSafe system inv post (newer ++ past) :=
  Safe.later (h.stable _ _) hsafe hnewer hinv

/-- Whatever a system goes through, the invariant holds, no two programs have one tag, and every
program in progress is safe. -/
theorem Guarantees.reaches (h : Guarantees system inv post) {past : List (Moment τ σ)}
    {running : List (Running τ C R ε α σ)} (hreaches : Reaches system past running) :
    inv past ∧ running.Pairwise (fun one other ↦ one.tag ≠ other.tag) ∧
      ∀ one ∈ running, one.IsSafe system inv post past := by
  induction hreaches with
  | start hstart => exact ⟨h.start _ hstart, List.Pairwise.nil, fun one hmem ↦ by cases hmem⟩
  | spawn hreaches tag hpast hrunning ih =>
    obtain ⟨hinv, hpairwise, hsafe⟩ := ih
    refine ⟨hinv, List.pairwise_cons.mpr ⟨fun other hmem ↦ (hrunning other hmem).symm, hpairwise⟩,
      fun one hmem ↦ ?_⟩
    rcases List.mem_cons.mp hmem with rfl | hmem
    · exact h.body tag _ _ hinv hpast
    · exact hsafe one hmem
  | @call moment earlier since before after tag request next reply state hreaches hanswer ih =>
    obtain ⟨hinv, hpairwise, hsafe⟩ := ih
    obtain ⟨hkept, hnext⟩ := hsafe ⟨tag, since, .call request next⟩
      (List.mem_append_right _ List.mem_cons_self) [] moment earlier reply state rfl (notBy_nil tag)
      hinv hanswer
    obtain ⟨hbefore, hafter, hacross⟩ := List.pairwise_append.mp hpairwise
    have hothers : ∀ one ∈ before ++ after, one.tag ≠ tag := by
      intro one hmem
      rcases List.mem_append.mp hmem with hmem | hmem
      · exact hacross one hmem _ List.mem_cons_self
      · exact ((List.pairwise_cons.mp hafter).1 one hmem).symm
    refine ⟨hkept, ?_, fun one hmem ↦ ?_⟩
    · refine List.pairwise_append.mpr ⟨hbefore, ?_, fun one hone other hother ↦ ?_⟩
      · exact List.pairwise_cons.mpr
          ⟨(List.pairwise_cons.mp hafter).1, (List.pairwise_cons.mp hafter).2⟩
      · rcases List.mem_cons.mp hother with rfl | hother
        · exact hothers one (List.mem_append_left _ hone)
        · exact hacross one hone other (List.mem_cons_of_mem _ hother)
    · have hlater (hmem : one ∈ before ++ after) :
          one.IsSafe system inv post (⟨some tag, state⟩ :: moment :: earlier) := by
        have hmem' : one ∈ before ++ ⟨tag, since, .call request next⟩ :: after := by
          rw [List.mem_append, List.mem_cons]
          exact (List.mem_append.mp hmem).imp id Or.inr
        refine h.later (hsafe one hmem') (notBy_singleton.mpr fun heq ↦ ?_) hkept
        exact hothers one hmem (Option.some.inj heq).symm
      rcases List.mem_append.mp hmem with hmem | hmem
      · exact hlater (List.mem_append_left _ hmem)
      · rcases List.mem_cons.mp hmem with rfl | hmem
        · exact hnext
        · exact hlater (List.mem_append_right _ hmem)
  | drift hreaches hdrift ih =>
    obtain ⟨hinv, hpairwise, hsafe⟩ := ih
    have hkept := h.drift _ _ _ hinv hdrift
    refine ⟨hkept, hpairwise, fun one hmem ↦ ?_⟩
    exact h.later (hsafe one hmem) (notBy_singleton.mpr fun heq ↦ by cases heq) hkept
  | restart hreaches hrestart ih =>
    exact ⟨h.restart _ _ _ ih.1 hrestart, List.Pairwise.nil, fun one hmem ↦ by cases hmem⟩

/-- A program that has ended in a system ended as it should. -/
theorem Guarantees.outcome (h : Guarantees system inv post) {past since : List (Moment τ σ)}
    {running : List (Running τ C R ε α σ)} (hreaches : Reaches system past running) {tag : τ}
    {outcome : Except ε α} (hmem : ⟨tag, since, .done outcome⟩ ∈ running) :
    post tag since outcome past :=
  (h.reaches hreaches).2.2 _ hmem

/-- The program that began last makes its next call. -/
theorem Reaches.callHead {tag : τ} {request : C} {next : R request → Program C R ε α}
    {reply : R request} {moment : Moment τ σ} {earlier since : List (Moment τ σ)} {state : σ}
    {running : List (Running τ C R ε α σ)}
    (h : Reaches system (moment :: earlier) (⟨tag, since, .call request next⟩ :: running))
    (hanswer : system.answers tag request moment.state reply state) :
    Reaches system (⟨some tag, state⟩ :: moment :: earlier)
      (⟨tag, since, next reply⟩ :: running) := by
  rw [← List.nil_append (_ :: running)] at h ⊢
  exact h.call hanswer

/-- A program that nobody interrupts runs as it does alone, while its environment gives answers that
the system allows. -/
theorem Reaches.runInWhile (env : (request : C) → σ → R request × σ) {tag : τ} (keeps : σ → Prop)
    (henv : ∀ request state, keeps state →
      system.answers tag request state (env request state).1 (env request state).2 ∧
        keeps (env request state).2)
    {since : List (Moment τ σ)} (program : Program C R ε α) {moment : Moment τ σ}
    {earlier : List (Moment τ σ)} {running : List (Running τ C R ε α σ)}
    (h : Reaches system (moment :: earlier) (⟨tag, since, program⟩ :: running))
    (hmoment : keeps moment.state) :
    Reaches system (momentsAlone env tag program moment.state ++ moment :: earlier)
      (⟨tag, since, .done (program.runIn env moment.state).1⟩ :: running) := by
  induction program generalizing moment earlier with
  | done outcome => exact h
  | call request next ih =>
    obtain ⟨hanswer, hkeeps⟩ := henv request moment.state hmoment
    rw [momentsAlone_call_append]
    exact ih _ (h.callHead hanswer) hkeeps

/-- A program that nobody interrupts runs as it does alone. -/
theorem Reaches.runIn {env : (request : C) → σ → R request × σ} {tag : τ}
    (henv : ∀ request state,
      system.answers tag request state (env request state).1 (env request state).2)
    {since : List (Moment τ σ)} (program : Program C R ε α) {moment : Moment τ σ}
    {earlier : List (Moment τ σ)} {running : List (Running τ C R ε α σ)}
    (h : Reaches system (moment :: earlier) (⟨tag, since, program⟩ :: running)) :
    Reaches system (momentsAlone env tag program moment.state ++ moment :: earlier)
      (⟨tag, since, .done (program.runIn env moment.state).1⟩ :: running) :=
  h.runInWhile env (fun _ ↦ True) (fun request state _ ↦ ⟨henv request state, trivial⟩) program
    trivial

end Together

end StudentStatus.Interaction
