import StudentStatus.Chaincode.CompositeKeys
import StudentStatus.Chaincode.RecordInvariant
import StudentStatus.Optimistic.Commit

/-!
# Concurrent transactions

The contract on an optimistic network. What a command does depends on the ledger through the value
of the one key it reads (`Effect.congr`), so the executions of a transaction meet the condition of
the network's library (`readsDetermine_execute`), and its ledgers are the ledgers of sequential runs
(`reachable_iff_network`). Every interleaving of endorsements and commits is equivalent to the
sequential run of the committed transactions (`committed_serializable`), and a grade is committed
only while the record it was checked against is the current one (`committed_grade_provenance`).
-/

set_option autoImplicit false
set_option relaxedAutoImplicit false

namespace StudentStatus.Chaincode

open Interaction Optimistic Json

/-! ### What an execution depends on -/

/-- An effect depends on the ledger only through the value of the key that is read. -/
theorem Effect.congr {ctx : Context} {ledger other : Ledger} {command : Command}
    {read key text : String} (h : Effect ctx ledger command read key text)
    (hvalue : other.value read = ledger.value read) : Effect ctx other command read key text := by
  cases h with
  | create accepts => exact .create { accepts with fresh := hvalue.trans accepts.fresh }
  | update accepts =>
    exact .update { accepts with stored := (storedStudent_congr hvalue).trans accepts.stored }
  | grade accepts =>
    exact .grade { accepts with stored := (storedStudent_congr hvalue).trans accepts.stored }

theorem readsDetermine_execute (stub : Stub) : ReadsDetermine (execute stub) := by
  intro tx chain other footprint hexec hvalues
  obtain ⟨read, key, text, heffect, rfl⟩ := execute_eq_some_iff.mp hexec
  exact execute_eq_some_iff.mpr
    ⟨read, key, text, heffect.congr (hvalues read (List.mem_singleton_self _)), rfl⟩

/-! ### Serializability -/

/-- A run creates no ID twice. -/
theorem Reaches.pairwise_creates {stub : Stub} {txs : List Transaction} {ledger : Ledger}
    (h : Reaches stub txs ledger) :
    txs.Pairwise fun later earlier ↦ ∀ studentID, Creates later studentID →
      ¬ Creates earlier studentID := by
  refine h.induction (motive := fun txs _ ↦ txs.Pairwise fun later earlier ↦ ∀ studentID,
    Creates later studentID → ¬ Creates earlier studentID) List.Pairwise.nil ?_
  intro newest earlier older read key text holder ih heffect
  refine List.pairwise_cons.mpr ⟨fun tx hmem studentID hnewest hcreates ↦ ?_, ih⟩
  have hsome := holder.isSome_of_registered ⟨tx, hmem, hcreates⟩
  obtain ⟨-, studentJSON, student, -, rfl, accepts, -⟩ := hnewest.accepts heffect
  rw [accepts.fresh] at hsome
  cases hsome

/-- The ledgers that the network reaches are the ledgers of the sequential runs, so what holds of
every reachable ledger holds of every world state of the network. -/
theorem reachable_iff_network {stub : Stub} {ledger : Ledger} :
    Reachable stub ledger ↔ ∃ network : Network String String Transaction,
      Optimistic.Reachable (execute stub) network ∧ network.chain = ledger := by
  constructor
  · rintro ⟨txs, hreaches⟩
    obtain ⟨network, hnetwork, hchain, -⟩ := Optimistic.Reachable.of_replay hreaches
    exact ⟨network, hnetwork, hchain⟩
  · rintro ⟨network, hnetwork, rfl⟩
    exact ⟨_, hnetwork.replay_committed (readsDetermine_execute stub)⟩

/-- Serializability: the committed transactions, run one at a time in commit order, all succeed and
build the committed ledger. No ID is created twice, and every committed `UpdateStudent` writes only
the key it read, at the version that the key has at the commit. -/
theorem committed_serializable {stub : Stub} {network : Network String String Transaction}
    (h : Optimistic.Reachable (execute stub) network) :
    Reaches stub (network.committed.map Endorsed.tx) network.chain ∧
      (network.committed.map Endorsed.tx).Pairwise (fun later earlier ↦ ∀ studentID,
        Creates later studentID → ¬ Creates earlier studentID) ∧
      ∀ later endorsed earlier studentID studentUpdateJSON,
        network.committed = later ++ endorsed :: earlier →
        endorsed.tx.command = .updateStudent studentID studentUpdateJSON →
        ∃ (newer older : Ledger) (text : String),
          network.chain = newer ++ [(studentID, text)] :: older ∧
          newer.length = later.length ∧ Reaches stub (earlier.map Endorsed.tx) older ∧
          endorsed.writes = [(studentID, text)] ∧
          endorsed.readVersions = [(studentID, older.version studentID)] ∧
          (older.version studentID).isSome := by
  have hreads := readsDetermine_execute stub
  have hreplay : Reaches stub _ _ := h.replay_committed hreads
  refine ⟨hreplay, hreplay.pairwise_creates, ?_⟩
  intro later endorsed earlier studentID studentUpdateJSON hsplit hcommand
  obtain ⟨newer, older, footprint, hchain, hlength, holder, hexec, hwrites, hversions⟩ :=
    h.committed_at hreads hsplit
  obtain ⟨read, key, text, heffect, rfl⟩ := execute_eq_some_iff.mp hexec
  rw [hcommand] at heffect
  cases heffect with
  | update accepts =>
    obtain ⟨stored, hstored, -⟩ := (storedStudent_eq_ok_iff _).mp accepts.stored
    refine ⟨newer, older, _, hchain.trans (by rw [← hwrites]), hlength, holder, hwrites.symm,
      hversions, ?_⟩
    rw [Chain.isSome_version, hstored]
    rfl

/-- The enrolment as it is endorsed on the empty ledger. -/
def enrolled : Endorsed String String Transaction :=
  endorsedOn enrolment [] ⟨["s1"], [("s1", marshal ada)]⟩

/-- One enrolment endorsed twice on the empty ledger: the first one ordered is committed, the other
one is invalidated. -/
theorem reachable_enrolled :
    Optimistic.Reachable (execute fabricStub) ⟨[enrolled.writes], [], [enrolled]⟩ := by
  have hexec : execute fabricStub enrolment [] = some ⟨["s1"], [("s1", marshal ada)]⟩ :=
    execute_eq_some_iff.mpr ⟨_, _, _, effect_enrolment fabricStub, rfl⟩
  have hraced := (Optimistic.Reachable.initial.step
    (.endorse enrolment List.suffix_rfl hexec)).step (.endorse enrolment List.suffix_rfl hexec)
  have hcommitted := hraced.step (Step.commit_head rfl (by decide))
  exact hcommitted.step (Step.invalidate_head rfl (by decide))

theorem committed_serializable_enrolled : Reaches fabricStub [enrolment] [enrolled.writes] :=
  (committed_serializable reachable_enrolled).1

/-! ### Provenance of grades -/

/-- Whenever a grade is committed at the key of a student and a school, the record of the student is
there at the commit and has that school, and the client passes the manager check and is of the
bureau or of that school, or is the student. -/
theorem committed_grade_provenance {stub : Stub} (hstub : stub.Lawful)
    {network next : Network String String Transaction}
    (h : Optimistic.Reachable (execute stub) network) (hstep : Step (execute stub) network next)
    {endorsed : Endorsed String String Transaction}
    (hcommit : next.committed = endorsed :: network.committed)
    {studentID gradeJSON : String}
    (hcommand : endorsed.tx.command = .createStudentGrade studentID gradeJSON)
    {id sch key text : String}
    (hkey : stub.createCompositeKey compositeKeyStudentGrade [id, sch] = .ok key)
    (hwrite : (key, text) ∈ endorsed.writes) :
    (∃ student, storedStudent network.chain id = .ok student ∧ student.school = sch) ∧
      IsManager endorsed.tx.client ∧
      (endorsed.tx.client.mspID = educationBureauMSP ∨ endorsed.tx.client.mspID = sch ∨
        endorsed.tx.client.id = id) := by
  have hreads := readsDetermine_execute stub
  cases hstep with
  | endorse tx hsnapshot hexec => exact absurd hcommit.symm (List.cons_ne_self _ _)
  | invalidate ordered hpending hstale => exact absurd hcommit.symm (List.cons_ne_self _ _)
  | commit ordered hpending hcurrent =>
    cases (List.cons.inj hcommit).1
    have hmem : endorsed ∈ network.pending := hpending ▸ List.mem_append_right _ List.mem_cons_self
    obtain ⟨footprint, hexec, hwrites, -⟩ := h.exec_of_current hreads hmem hcurrent
    obtain ⟨read, key', text', heffect, rfl⟩ := execute_eq_some_iff.mp hexec
    have hwell : WellFormed network.chain :=
      Reaches.wellFormed (show Reaches stub _ _ from h.replay_committed hreads)
    rw [← hwrites, List.mem_singleton] at hwrite
    cases hwrite
    rw [hcommand] at heffect
    cases heffect with
    | @grade _ _ student _ _ accepts =>
      have hid := hwell.id_of_stored accepts.stored
      obtain ⟨-, hattributes⟩ := hstub.createCompositeKey_inj accepts.composed hkey
      obtain ⟨rfl, hrest⟩ := List.cons.inj hattributes
      obtain ⟨rfl, -⟩ := List.cons.inj hrest
      rw [← hid] at accepts
      refine ⟨⟨student, accepts.stored, rfl⟩, accepts.manager, ?_⟩
      rcases accepts.visible with hown | hbureau | hschool
      · exact Or.inr (Or.inr hown)
      · exact Or.inl hbureau
      · exact Or.inr (Or.inl hschool)

theorem committed_grade_provenance_graded :
    (∃ student, storedStudent [enrolled.writes] "s1" = .ok student ∧
      student.school = "School1MSP") ∧ IsManager grading.client ∧
      (grading.client.mspID = educationBureauMSP ∨ grading.client.mspID = "School1MSP" ∨
        grading.client.id = "s1") :=
  have hexec : execute fabricStub grading [enrolled.writes] =
      some ⟨["s1"], [(adaGrade.id, marshal adaGrade)]⟩ :=
    execute_eq_some_iff.mpr ⟨_, _, _, effect_grading fabricStub_lawful, rfl⟩
  have hendorsed := reachable_enrolled.step (.endorse grading List.suffix_rfl hexec)
  have hkey := fabricStub_lawful.createCompositeKey_ok compositeKeyStudentGrade
    ["s1", "School1MSP"] (by decide +kernel)
  committed_grade_provenance fabricStub_lawful hendorsed
    (Step.commit_head rfl (by decide)) rfl rfl hkey
    (List.mem_singleton_self (adaGrade.id, marshal adaGrade))

end StudentStatus.Chaincode
