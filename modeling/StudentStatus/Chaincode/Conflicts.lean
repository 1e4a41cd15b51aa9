import StudentStatus.Chaincode.Concurrency
import StudentStatus.Chaincode.Permanence
import StudentStatus.Chaincode.Register
import StudentStatus.Optimistic.Conflict

/-!
# Conflicting transactions

Which concurrent transactions of the contract invalidate each other. Every command reads the record
of one student, its subject, and only creations and updates of that student overwrite it. A pending
transaction is therefore valid exactly when no creation or update of its subject was committed since
it was endorsed (`current_iff_not_overwritten`). Of transactions that are ordered one after the
other, those are committed that no creation or update of their subject precedes (`ordered_block`):
the first writer of a student wins, and grades never invalidate each other (`concurrent_grades`).
-/

set_option autoImplicit false
set_option relaxedAutoImplicit false

namespace StudentStatus.Chaincode

open Interaction Optimistic Json

/-- The ID whose record the command reads. -/
def Command.subject : Command → Option String
  | .createStudent studentJSON =>
    (unmarshal studentJSON : Except DecodeError Student).toOption.map Student.id
  | .updateStudent studentID _ => some studentID
  | .createStudentGrade studentID _ => some studentID

/-- A command that stores a student record stores that of its subject. -/
theorem Command.subject_of_studentKey {command : Command} {key : String}
    (h : command.studentKey = some key) : command.subject = some key := by
  cases command with
  | createStudent studentJSON => exact h
  | updateStudent studentID studentUpdateJSON => exact h
  | createStudentGrade studentID gradeJSON => cases h

/-- The first transaction stores the record that the second one reads. -/
def Overwrites (first second : Transaction) : Prop :=
  first.command.studentKey.isSome ∧ first.command.studentKey = second.command.subject

instance (first second : Transaction) : Decidable (Overwrites first second) :=
  inferInstanceAs (Decidable (_ ∧ _))

/-- The transactions of a block that no earlier one overwrites, after those of `before`. -/
def unpreceded (before : List Transaction) : List Transaction → List Transaction
  | [] => []
  | tx :: block =>
    if ∀ earlier ∈ before, ¬ Overwrites earlier tx then tx :: unpreceded (tx :: before) block
    else unpreceded (tx :: before) block

theorem Effect.subject_eq {ctx : Context} {ledger : Ledger} {command : Command}
    {read key text : String} (h : Effect ctx ledger command read key text) :
    command.subject = some read := by
  cases h with
  | create accepts => simp [Command.subject, accepts.decoded, Except.toOption]
  | update accepts => rfl
  | grade accepts => rfl

/-- The record of an endorsed transaction: it read its subject, and it writes a grade at a grade key
or a student record under the ID of its subject. -/
structure Endorses (stub : Stub) (endorsed : Endorsed String String Transaction)
    (read key text : String) : Prop where
  subject : endorsed.tx.command.subject = some read
  reads : endorsed.readVersions.map Prod.fst = [read]
  writes : endorsed.writes = [(key, text)]
  kind : (endorsed.tx.command.IsGrading ∧ IsGradeKey stub key) ∨
    (¬ endorsed.tx.command.IsGrading ∧ endorsed.tx.command.studentKey = some key)

variable {stub : Stub}

theorem Endorses.of_execute {tx : Transaction} {snapshot : Ledger}
    {footprint : Footprint String String} (h : execute stub tx snapshot = some footprint) :
    ∃ read key text, Endorses stub (endorsedOn tx snapshot footprint) read key text := by
  obtain ⟨read, key, text, heffect, rfl⟩ := execute_eq_some_iff.mp h
  exact ⟨read, key, text, heffect.subject_eq, rfl, rfl, heffect.kind⟩

/-- Every transaction that was endorsed has such a record. -/
theorem Endorses.of_reachable {network : Network String String Transaction}
    (h : Optimistic.Reachable (execute stub) network)
    {endorsed : Endorsed String String Transaction}
    (hmem : endorsed ∈ network.pending ∨ endorsed ∈ network.committed) :
    ∃ read key text, Endorses stub endorsed read key text := by
  induction h with
  | initial => rcases hmem with hmem | hmem <;> cases hmem
  | step hreachable hstep ih =>
    cases hstep with
    | endorse tx hsnapshot hexec =>
      rcases hmem with hmem | hmem
      · rcases List.mem_cons.mp hmem with rfl | hmem
        · exact Endorses.of_execute hexec
        · exact ih (Or.inl hmem)
      · exact ih (Or.inr hmem)
    | commit ordered hpending hcurrent =>
      rcases hmem with hmem | hmem
      · exact ih (Or.inl (Network.mem_pending_of_mem_rest hpending hmem))
      · rcases List.mem_cons.mp hmem with rfl | hmem
        · exact ih (Or.inl (hpending ▸ List.mem_append_right _ List.mem_cons_self))
        · exact ih (Or.inr hmem)
    | invalidate ordered hpending hstale =>
      rcases hmem with hmem | hmem
      · exact ih (Or.inl (Network.mem_pending_of_mem_rest hpending hmem))
      · exact ih (Or.inr hmem)

/-- The subject of the transaction is no composite key. -/
def PlainSubject (tx : Transaction) : Prop := ∀ id, tx.command.subject = some id → IsPlain id

/-- The student of a grade that is filed is an attribute of its key, and so no composite key. -/
theorem Effect.isPlain_of_isGrading {ctx : Context} (hstub : ctx.stub.Lawful) {ledger : Ledger}
    (hwell : WellFormed ledger) {command : Command} {read key text : String}
    (h : Effect ctx ledger command read key text) (hgrading : command.IsGrading) :
    IsPlain read := by
  cases h with
  | create accepts => cases hgrading
  | update accepts => cases hgrading
  | @grade _ _ student _ _ accepts =>
    have hcomposed := accepts.composed
    rw [hwell.id_of_stored accepts.stored, hstub.createCompositeKey_eq_ok_iff] at hcomposed
    have hmem : read ∈ [compositeKeyStudentGrade, read, student.school] :=
      List.mem_cons_of_mem _ List.mem_cons_self
    exact fun hhead ↦ separator_not_mem hcomposed.1 _ (List.mem_map_of_mem hmem)
      (List.mem_of_mem_head? hhead)

theorem Stub.Lawful.not_isGradeKey (hstub : stub.Lawful) {key : String} (h : IsPlain key) :
    ¬ IsGradeKey stub key := by
  rintro ⟨studentID, school, hkey⟩
  exact hstub.createCompositeKey_ne h _ _ hkey

/-- A write set touches a transaction when its transaction overwrites it. -/
theorem touches_iff_overwrites (hstub : stub.Lawful)
    {first second : Endorsed String String Transaction} {read key text read' key' text' : String}
    (hfirst : Endorses stub first read key text) (hsecond : Endorses stub second read' key' text')
    (hplain : PlainSubject second.tx) :
    Touches first.writes second ↔ Overwrites first.tx second.tx := by
  have htouches : Touches first.writes second ↔ read' = key := by
    have hmem (read : String) :
        (∃ version, (read, version) ∈ second.readVersions) ↔ read = read' := by
      rw [← List.mem_singleton, ← hsecond.reads, List.mem_map]
      simp
    simp only [Touches, hfirst.writes, List.map_cons, List.map_nil, List.mem_singleton, Prod.exists]
    constructor
    · rintro ⟨read, version, hread, rfl⟩
      exact ((hmem _).mp ⟨version, hread⟩).symm
    · rintro rfl
      obtain ⟨version, hread⟩ := (hmem read').mpr rfl
      exact ⟨read', version, hread, rfl⟩
  rw [htouches, Overwrites, hsecond.subject]
  rcases hfirst.kind with ⟨hgrading, hkey⟩ | ⟨-, hkey⟩
  · rw [hgrading.studentKey]
    refine iff_of_false ?_ (by simp)
    rintro rfl
    exact hstub.not_isGradeKey (hplain _ hsecond.subject) hkey
  · rw [hkey, Option.some.injEq]
    exact ⟨fun heq ↦ ⟨rfl, heq.symm⟩, fun h ↦ h.2.symm⟩

/-- Overwriting is transitive: what overwrites a transaction that stores a record stores the same
record. -/
theorem Overwrites.trans {first second third : Transaction} (h : Overwrites first second)
    (h' : Overwrites second third) : Overwrites first third := by
  obtain ⟨key, hkey⟩ := Option.isSome_iff_exists.mp h'.1
  refine ⟨h.1, ?_⟩
  rw [h.2, Command.subject_of_studentKey hkey, ← hkey, h'.2]

section Network

variable {network next : Network String String Transaction}
  {block : List (Endorsed String String Transaction)}

/-- In a reachable network touching is overwriting. -/
theorem touches_iff (hstub : stub.Lawful) (h : Optimistic.Reachable (execute stub) network)
    {first second : Endorsed String String Transaction}
    (hfirst : first ∈ network.pending ∨ first ∈ network.committed)
    (hsecond : second ∈ network.pending)
    (hplain : PlainSubject second.tx) :
    Touches first.writes second ↔ Overwrites first.tx second.tx := by
  obtain ⟨read, key, text, hwrites⟩ := Endorses.of_reachable h hfirst
  obtain ⟨read', key', text', hreads⟩ := Endorses.of_reachable h (Or.inl hsecond)
  exact touches_iff_overwrites hstub hwrites hreads hplain

/-- A pending grade has a subject that is no composite key. -/
theorem plainSubject_of_isGrading (hstub : stub.Lawful)
    (h : Optimistic.Reachable (execute stub) network)
    {endorsed : Endorsed String String Transaction} (hmem : endorsed ∈ network.pending)
    (hgrading : endorsed.tx.command.IsGrading) : PlainSubject endorsed.tx := by
  obtain ⟨snapshot, footprint, hsuffix, hexec, -⟩ := h.pending_endorsed hmem
  obtain ⟨read, key, text, heffect, -⟩ := execute_eq_some_iff.mp hexec
  have hsnapshot : Reachable stub snapshot :=
    (reachable_iff_network.mpr ⟨network, h, rfl⟩).of_suffix hsuffix
  intro id hsubject
  cases Option.some.inj (heffect.subject_eq.symm.trans hsubject)
  exact heffect.isPlain_of_isGrading hstub hsnapshot.wellFormed hgrading

/-- A pending transaction is valid exactly when no creation or update of its subject was committed
since it was endorsed. -/
theorem current_iff_not_overwritten (hstub : stub.Lawful)
    (h : Optimistic.Reachable (execute stub) network)
    {endorsed : Endorsed String String Transaction} (hmem : endorsed ∈ network.pending)
    (hplain : PlainSubject endorsed.tx) :
    ∃ (since earlier : List (Endorsed String String Transaction))
      (footprint : Footprint String String), network.committed = since ++ earlier ∧
      Reaches stub (earlier.map Endorsed.tx) (earlier.map Endorsed.writes) ∧
      execute stub endorsed.tx (earlier.map Endorsed.writes) = some footprint ∧
      endorsed = endorsedOn endorsed.tx (earlier.map Endorsed.writes) footprint ∧
      (network.Current endorsed ↔ ∀ committed ∈ since, ¬ Overwrites committed.tx endorsed.tx) := by
  obtain ⟨since, earlier, footprint, hsplit, hexec, heq, hcurrent⟩ := h.current_iff hmem
  refine ⟨since, earlier, footprint, hsplit,
    h.replay_earlier (readsDetermine_execute stub) hsplit, hexec, heq, ?_⟩
  rw [hcurrent]
  refine forall₂_congr fun committed hcommitted ↦ not_congr ?_
  exact touches_iff hstub h (Or.inr (hsplit ▸ List.mem_append_left _ hcommitted)) hmem hplain

/-- The transactions of a block that is ordered are committed when no creation or update of their
subject precedes them in the block. -/
theorem ordered_block (hstub : stub.Lawful) (h : Optimistic.Reachable (execute stub) network)
    (hblock : ∀ endorsed ∈ block, endorsed ∈ network.pending ∧ network.Current endorsed)
    (hplain : ∀ endorsed ∈ block, PlainSubject endorsed.tx)
    (horders : Orders (execute stub) network block next) :
    next.committed.map Endorsed.tx =
      (unpreceded [] (block.map Endorsed.tx)).reverse ++ network.committed.map Endorsed.tx := by
  have htouches : ∀ first ∈ block, ∀ second ∈ block,
      (Touches first.writes second ↔ Overwrites first.tx second.tx) := fun first hfirst second
      hsecond ↦ touches_iff hstub h (Or.inl (hblock first hfirst).1) (hblock second hsecond).1
        (hplain second hsecond)
  have htrans : TouchesTrans block := by
    intro first hfirst second hsecond third hthird hone htwo
    rw [htouches first hfirst second hsecond] at hone
    rw [htouches second hsecond third hthird] at htwo
    rw [htouches first hfirst third hthird]
    exact hone.trans htwo
  have hsurvivors : ∀ before rest, before ++ rest ⊆ block →
      (untouched before rest).map Endorsed.tx =
        unpreceded (before.map Endorsed.tx) (rest.map Endorsed.tx) := by
    intro before rest hsubset
    induction rest generalizing before with
    | nil => rfl
    | cons endorsed rest ih =>
      have hmem : endorsed ∈ block :=
        hsubset (List.mem_append_right _ List.mem_cons_self)
      have hnext := ih (endorsed :: before) fun other hother ↦ hsubset <| by
        rw [List.cons_append, List.mem_cons, List.mem_append] at hother
        rw [List.mem_append, List.mem_cons]
        tauto
      have hiff : (∀ earlier ∈ before, ¬ Touches earlier.writes endorsed) ↔
          ∀ earlier ∈ before.map Endorsed.tx, ¬ Overwrites earlier endorsed.tx := by
        rw [List.forall_mem_map]
        refine forall₂_congr fun earlier hearlier ↦ not_congr ?_
        exact htouches earlier (hsubset (List.mem_append_left _ hearlier)) endorsed hmem
      rw [List.map_cons] at hnext
      rw [untouched, List.map_cons, unpreceded]
      simp only [hiff]
      split_ifs
      · rw [List.map_cons, hnext]
      · exact hnext
  rw [horders.eq_survivors.1, h.survivors_eq_untouched hblock htrans, List.map_append,
    List.map_reverse, hsurvivors [] block (List.Subset.refl _)]
  rfl

/-- Grades that are filed concurrently are all committed, in whatever order they are ordered, and
each of them is kept in the history of its key. -/
theorem concurrent_grades (hstub : stub.Lawful) (h : Optimistic.Reachable (execute stub) network)
    (hblock : ∀ endorsed ∈ block, endorsed ∈ network.pending ∧ network.Current endorsed)
    (hgrading : ∀ endorsed ∈ block, endorsed.tx.command.IsGrading)
    (horders : Orders (execute stub) network block next) :
    next.committed = block.reverse ++ network.committed ∧
      ∀ key, next.chain.history key =
        (((block.flatMap Endorsed.writes).filter fun write ↦ write.1 = key).map Prod.snd).reverse ++
          network.chain.history key := by
  have hnot : ∀ first ∈ block, ∀ second ∈ block, ¬ Touches first.writes second := by
    intro first hfirst second hsecond
    have hpending := (hblock second hsecond).1
    rw [touches_iff hstub h (Or.inl (hblock first hfirst).1) hpending
      (plainSubject_of_isGrading hstub h hpending (hgrading second hsecond))]
    rintro ⟨hsome, -⟩
    rw [(hgrading first hfirst).studentKey] at hsome
    cases hsome
  have hsurvivors : survivors network.chain block = block := by
    rw [h.survivors_eq_untouched hblock fun first hfirst second hsecond _ _ htouches ↦
      absurd htouches (hnot first hfirst second hsecond)]
    exact untouched_eq_self hnot
  obtain ⟨hcommitted, hchain⟩ := horders.eq_survivors
  rw [hsurvivors] at hcommitted hchain
  refine ⟨hcommitted, fun key ↦ ?_⟩
  rw [hchain]
  refine history_commitAll _ (fun endorsed hendorsed ↦ ?_) key
  obtain ⟨read, written, text, hendorses⟩ :=
    Endorses.of_reachable h (Or.inl (hblock endorsed hendorsed).1)
  exact ⟨_, hendorses.writes⟩

end Network

/-! ### A sample -/

/-- A grade of the sample student, endorsed while the enrolment is the only commit. -/
def graded : Endorsed String String Transaction :=
  endorsedOn grading [enrolled.writes] ⟨["s1"], [(adaGrade.id, marshal adaGrade)]⟩

/-- The move of the student to another school, endorsed at the same time. -/
def moved : Endorsed String String Transaction :=
  endorsedOn relocation [enrolled.writes] ⟨["s1"], [("s1", marshal relocated)]⟩

/-- Both are pending. -/
def racing : Network String String Transaction := ⟨[enrolled.writes], [graded, moved], [enrolled]⟩

theorem effect_relocation : Effect (relocation.context fabricStub) [[("s1", marshal ada)]]
    relocation.command "s1" "s1" (marshal relocated) := by
  obtain ⟨older, read, key, text, -, heffect, hledger⟩ := reaches_cons_iff.mp reaches_relocation
  cases hledger
  cases heffect.subject_eq
  exact heffect

theorem reachable_racing : Optimistic.Reachable (execute fabricStub) racing := by
  have hgrading : execute fabricStub grading [enrolled.writes] =
      some ⟨["s1"], [(adaGrade.id, marshal adaGrade)]⟩ :=
    execute_eq_some_iff.mpr ⟨_, _, _, effect_grading fabricStub_lawful, rfl⟩
  have hmoving : execute fabricStub relocation [enrolled.writes] =
      some ⟨["s1"], [("s1", marshal relocated)]⟩ :=
    execute_eq_some_iff.mpr ⟨_, _, _, effect_relocation, rfl⟩
  exact (reachable_enrolled.step (.endorse relocation List.suffix_rfl hmoving)).step
    (.endorse grading List.suffix_rfl hgrading)

theorem plainSubject_racing : PlainSubject grading ∧ PlainSubject relocation := by
  constructor <;> rintro id ⟨⟩ <;> decide

/-- The grade is current while the move is not committed. -/
theorem current_iff_not_overwritten_racing : ∃ since : List (Endorsed String String Transaction),
    since <+: racing.committed ∧
      (racing.Current graded ↔ ∀ committed ∈ since, ¬ Overwrites committed.tx grading) := by
  obtain ⟨since, earlier, footprint, hsplit, -, -, -, hcurrent⟩ :=
    current_iff_not_overwritten fabricStub_lawful reachable_racing (List.mem_cons_self)
      plainSubject_racing.1
  exact ⟨since, ⟨earlier, hsplit.symm⟩, hcurrent⟩

theorem current_racing : ∀ endorsed ∈ [moved, graded],
    endorsed ∈ racing.pending ∧ racing.Current endorsed := by
  intro endorsed hmem
  rcases List.mem_pair.mp hmem with rfl | rfl
  · exact ⟨by simp [racing], by decide⟩
  · exact ⟨by simp [racing], by decide⟩

/-- Ordered after the move the grade is invalidated. -/
theorem ordered_block_racing : ∃ next, Orders (execute fabricStub) racing [moved, graded] next ∧
    next.committed.map Endorsed.tx = [relocation, enrolment] := by
  have horders : Orders (execute fabricStub) racing [moved, graded]
      ⟨[moved.writes, enrolled.writes], [], [moved, enrolled]⟩ :=
    @Orders.commit _ _ _ _ _ racing _ [graded] [] _ moved rfl (by decide)
      (@Orders.invalidate _ _ _ _ _ _ _ [] [] _ graded rfl (by decide) (.nil _))
  refine ⟨_, horders, ?_⟩
  have hplain : ∀ endorsed ∈ [moved, graded], PlainSubject endorsed.tx := by
    intro endorsed hmem
    rcases List.mem_pair.mp hmem with rfl | rfl
    · exact plainSubject_racing.2
    · exact plainSubject_racing.1
  rw [ordered_block fabricStub_lawful reachable_racing current_racing hplain horders]
  rfl

/-- Another grade of the student at the school, which has the same key. -/
def adaRegrade : StudentGrade := { adaGrade with courseGrades := "B" }

def regrading : Transaction :=
  ⟨school1Manager, noon, .createStudentGrade "s1" (marshal adaRegrade)⟩

/-- The other grade, endorsed at the same time. -/
def regraded : Endorsed String String Transaction :=
  endorsedOn regrading [enrolled.writes] ⟨["s1"], [(adaGrade.id, marshal adaRegrade)]⟩

/-- Both grades are pending. -/
def filing : Network String String Transaction :=
  ⟨[enrolled.writes], [graded, regraded], [enrolled]⟩

theorem reachable_filing : Optimistic.Reachable (execute fabricStub) filing := by
  have hgrading : execute fabricStub grading [enrolled.writes] =
      some ⟨["s1"], [(adaGrade.id, marshal adaGrade)]⟩ :=
    execute_eq_some_iff.mpr ⟨_, _, _, effect_grading fabricStub_lawful, rfl⟩
  have hregrading : execute fabricStub regrading [enrolled.writes] =
      some ⟨["s1"], [(adaGrade.id, marshal adaRegrade)]⟩ :=
    execute_eq_some_iff.mpr ⟨_, _, _, effect_filed fabricStub_lawful rfl, rfl⟩
  exact (reachable_enrolled.step (.endorse regrading List.suffix_rfl hregrading)).step
    (.endorse grading List.suffix_rfl hgrading)

/-- Both grades are committed in the block that has the other one first, and the history of their
key keeps both. -/
theorem concurrent_grades_filing :
    ∃ next, Orders (execute fabricStub) filing [regraded, graded] next ∧
      next.committed = [graded, regraded, enrolled] ∧
      next.chain.history adaGrade.id = [marshal adaGrade, marshal adaRegrade] := by
  have horders : Orders (execute fabricStub) filing [regraded, graded]
      ⟨[graded.writes, regraded.writes, enrolled.writes], [], [graded, regraded, enrolled]⟩ :=
    @Orders.commit _ _ _ _ _ filing _ [graded] [] _ regraded rfl (by decide)
      (@Orders.commit _ _ _ _ _ _ _ [] [] _ graded rfl (by decide) (.nil _))
  have hblock : ∀ endorsed ∈ [regraded, graded],
      endorsed ∈ filing.pending ∧ filing.Current endorsed := by
    intro endorsed hmem
    rcases List.mem_pair.mp hmem with rfl | rfl
    · exact ⟨by simp [filing], by decide⟩
    · exact ⟨by simp [filing], by decide⟩
  have hgrading : ∀ endorsed ∈ [regraded, graded], endorsed.tx.command.IsGrading := by
    intro endorsed hmem
    rcases List.mem_pair.mp hmem with rfl | rfl <;> trivial
  obtain ⟨hcommitted, hhistory⟩ :=
    concurrent_grades fabricStub_lawful reachable_filing hblock hgrading horders
  refine ⟨_, horders, hcommitted, (hhistory adaGrade.id).trans ?_⟩
  have hold : Chain.history filing.chain adaGrade.id = [] := by
    rw [filing, enrolled, endorsedOn, Chain.history_cons_singleton, if_neg (by decide +kernel)]
    rfl
  have hwrites : [regraded, graded].flatMap Endorsed.writes =
      [(adaGrade.id, marshal adaRegrade), (adaGrade.id, marshal adaGrade)] := rfl
  rw [hold, hwrites]
  simp

end StudentStatus.Chaincode
