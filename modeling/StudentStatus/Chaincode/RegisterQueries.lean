import StudentStatus.Chaincode.Conflicts
import StudentStatus.Chaincode.GradeListing
import StudentStatus.Chaincode.StudentListing

/-!
# What the register answers

The read operations on a ledger that stores a register. `QueryStudent` answers with the record of
the register, the pages of `QueryAllStudents` together with the visible records, and
`QueryStudentGrades` with the grades of all slots of the student, school after school
(`answers_from_register`). The network of concurrent clients only reaches ledgers that store a
register, the one to which the committed transactions lead (`network_refines_register`).
-/

set_option autoImplicit false
set_option relaxedAutoImplicit false

namespace StudentStatus.Chaincode

open Interaction Optimistic Json Paging

/-! ### The order of the slots -/

theorem minUnicodeRune_le (c : Char) : minUnicodeRune ≤ c := Nat.zero_le _

/-- The keys of a student's grades are in the order of the schools. -/
theorem GradeSlot.lt_of_key_lt {slot other : GradeSlot} (hid : slot.1.1 = other.1.1)
    (h : slot.key < other.key) : slot.1.2 < other.1.2 := by
  have hkey (slot : GradeSlot) : slot.key.toList =
      (minUnicodeRune :: Keys.terminated minUnicodeRune
        [compositeKeyStudentGrade.toList, slot.1.1.toList]) ++
        (slot.1.2.toList ++ [minUnicodeRune]) := by
    rw [GradeSlot.key, compositeKey_eq]
    simp [Keys.terminated]
  rw [String.lt_iff_toList_lt, hkey, hkey, hid] at h
  rw [String.lt_iff_toList_lt]
  exact Keys.lt_of_append_stop_lt minUnicodeRune_le (Keys.lt_of_append_lt _ h)

/-! ### The grades of a student -/

/-- The grade that an entry says, without its key. -/
def StudentGrade.toGrade (entry : StudentGrade) : Grade :=
  ⟨entry.modificationDate, entry.yearStatus, entry.semester, entry.courseGrades⟩

theorem Grade.toGrade_entry (grade : Grade) (key : String) :
    (grade.entry key).toGrade = grade := rfl

namespace StoredIn

variable {stub : Stub} {register : Register} {ledger : Ledger}

/-- The keys that the grade query of a student iterates are those of the student's slots that have
a grade, in the order of the schools. -/
theorem exists_slots (hstub : stub.Lawful) (h : StoredIn register ledger) {studentID start : String}
    (hstart : stub.createCompositeKey compositeKeyStudentGrade [studentID] = .ok start) :
    ∃ slots : List GradeSlot, slots.map GradeSlot.key = gradeKeys ledger start ∧
      slots.Pairwise (fun slot later ↦ slot.1.2 < later.1.2) ∧
      ∀ slot, slot ∈ slots ↔ slot.1.1 = studentID ∧ register.grades slot ≠ [] := by
  obtain ⟨hparts, rfl⟩ := hstub.createCompositeKey_eq_ok_iff.mp hstart
  have hstudent (slot : GradeSlot) :
      extendsKey (compositeKey compositeKeyStudentGrade [studentID]) slot.key ↔
        slot.1.1 = studentID := by
    rw [GradeSlot.key, extendsKey_compositeKey_iff hparts slot.all_parts]
    simp [List.cons_prefix_cons, eq_comm]
  have hmem (slot : GradeSlot) :
      slot.key ∈ gradeKeys ledger (compositeKey compositeKeyStudentGrade [studentID]) ↔
        slot.1.1 = studentID ∧ register.grades slot ≠ [] := by
    rw [mem_gradeKeys, hstudent, and_comm, Option.isSome_iff_ne_none, Ne,
      h.grades.value_eq_none_iff]
  have hrange : ∀ key ∈ gradeKeys ledger (compositeKey compositeKeyStudentGrade [studentID]),
      key ∈ Set.range GradeSlot.key := by
    intro key hkey
    obtain ⟨hsome, hextends⟩ := mem_gradeKeys.mp hkey
    rcases h.covered key hsome with ⟨id, rfl⟩ | hslot
    · -- an ID of a student does not begin with U+0000
      obtain ⟨rest, hrest⟩ := List.isPrefixOf_iff_prefix.mp hextends
      rw [compositeKey_eq] at hrest
      exact absurd (hrest ▸ rfl) id.2.2
    · exact hslot
  have hlift : gradeKeys ledger (compositeKey compositeKeyStudentGrade [studentID]) ∈
      Set.range (List.map GradeSlot.key) := by
    rw [Set.range_list_map]
    exact hrange
  obtain ⟨slots, hslots⟩ := hlift
  have hmem' (slot : GradeSlot) : slot ∈ slots ↔
      slot.1.1 = studentID ∧ register.grades slot ≠ [] := by
    rw [← hmem, ← hslots, List.mem_map_of_injective GradeSlot.key_injective]
  refine ⟨slots, hslots, ?_, hmem'⟩
  have hsorted : (slots.map GradeSlot.key).Pairwise (· < ·) := by
    rw [hslots]
    exact (pairwise_sortedKeys ledger).filter _
  refine (List.pairwise_map.mp hsorted).imp_of_mem fun {slot later} hslot hlater hlt ↦ ?_
  exact GradeSlot.lt_of_key_lt
    (((hmem' slot).mp hslot).1.trans ((hmem' later).mp hlater).1.symm) hlt

/-- What the grade query lists for a slot: the grades of the register, in the order in which the
stub lists a history. -/
theorem exists_listed (hstub : stub.Lawful) (h : StoredIn register ledger)
    (hwell : WellFormed ledger) :
    ∃ listed : GradeSlot → List Grade,
      (∀ slot, (listed slot).Perm (register.grades slot)) ∧
      ((∀ values, stub.historyForKey values = .ok values) → listed = register.grades) ∧
      ∀ slot, historyEntries stub ledger slot.key =
        (listed slot).map (Grade.entry slot.key) := by
  have hdecoded (slot : GradeSlot) :
      ((ledger.history slot.key).map decodedGrade).map StudentGrade.toGrade =
        register.grades slot := by
    rw [h.grades slot, List.map_map, List.map_map]
    exact (List.map_congr_left fun grade _ ↦ by simp [decodedGrade_marshal,
      Grade.toGrade_entry]).trans (List.map_id _)
  refine ⟨fun slot ↦ (historyEntries stub ledger slot.key).map StudentGrade.toGrade, ?_, ?_, ?_⟩
  · intro slot
    obtain ⟨texts, -, hperm, hentries, -⟩ := historyEntries_eq hstub hwell slot.key
    dsimp only
    rw [hentries, ← hdecoded]
    exact (hperm.map _).map _
  · intro hlatest
    funext slot
    rw [← hdecoded, historyEntries, hlatest]
  · intro slot
    obtain ⟨texts, -, -, hentries, hdecode⟩ := historyEntries_eq hstub hwell slot.key
    dsimp only
    rw [hentries, List.map_map, List.map_map]
    refine List.map_congr_left fun text htext ↦ ?_
    have hid := (hdecode text htext).2
    rw [Function.comp_apply, Function.comp_apply, ← hid]
    rfl

/-- `QueryStudent` answers with the record of the register. -/
theorem queryStudent_iff (h : StoredIn register ledger) (client : ClientIdentity) (now : Time)
    (id : StudentID) (student : Student) :
    (queryStudent id).result (Context.answer ⟨stub, client, now⟩ ledger) = .ok student ↔
      (client.id = id ∨ IsManager client) ∧ register.record id = some student ∧
        MaySee client id student := by
  rw [result_queryStudent, queriedStudent_eq_ok_iff, h.storedStudent_eq_ok_iff]

/-- `QueryStudentGrades` answers with the grades of the student's slots. -/
theorem queryStudentGrades_iff (hstub : stub.Lawful) (h : StoredIn register ledger)
    (hwell : WellFormed ledger) (id : StudentID) :
    ∃ (slots : List GradeSlot) (listed : GradeSlot → List Grade),
      slots.Pairwise (fun slot later ↦ slot.1.2 < later.1.2) ∧
      (∀ slot, slot ∈ slots ↔ slot.1.1 = id.1 ∧ register.grades slot ≠ []) ∧
      (∀ slot, (listed slot).Perm (register.grades slot)) ∧
      ((∀ values, stub.historyForKey values = .ok values) → listed = register.grades) ∧
      ∀ client now grades,
        (queryStudentGrades id).result (Context.answer ⟨stub, client, now⟩ ledger) = .ok grades ↔
          (client.id = id ∨ IsManager client) ∧
          (∃ student, register.record id = some student ∧ MaySee client id student) ∧
          isCompositeKeyPart id.1 ∧
          grades = slots.flatMap fun slot ↦ (listed slot).map (Grade.entry slot.key) := by
  obtain ⟨listed, hperm, hlatest, hentries⟩ := h.exists_listed hstub hwell
  have haccess (client : ClientIdentity) :
      (∃ student, queriedStudent ledger client id = .ok student) ↔
        (client.id = id ∨ IsManager client) ∧
          ∃ student, register.record id = some student ∧ MaySee client id student := by
    simp only [queriedStudent_eq_ok_iff, h.storedStudent_eq_ok_iff, exists_and_left]
  by_cases hpart : isCompositeKeyPart id.1
  · have hstart := hstub.createCompositeKey_ok compositeKeyStudentGrade [id.1]
      (by simp [isCompositeKeyPart_compositeKeyStudentGrade, hpart])
    obtain ⟨slots, hslots, hsorted, hmem⟩ := h.exists_slots hstub hstart
    refine ⟨slots, listed, hsorted, hmem, hperm, hlatest, fun client now grades ↦ ?_⟩
    have hlisting : (gradeKeys ledger (compositeKey compositeKeyStudentGrade [id.1])).flatMap
        (historyEntries stub ledger) =
          slots.flatMap fun slot ↦ (listed slot).map (Grade.entry slot.key) := by
      rw [← hslots, List.flatMap_map, funext hentries]
    rw [← and_assoc, ← haccess, result_queryStudentGrades ⟨stub, client, now⟩ hstub hwell]
    cases hqueried : queriedStudent ledger client id with
    | error abort => simp
    | ok student =>
      simp only [hstub.keysByPartialCompositeKey_eq _ _ _ _ hstart, Except.ok.injEq, hpart,
        exists_eq', true_and]
      rw [← hlisting, eq_comm]
      rfl
  · obtain ⟨err, hfail⟩ := hstub.createCompositeKey_error compositeKeyStudentGrade [id.1]
      (by simp [hpart])
    obtain ⟨err', hfail'⟩ :=
      hstub.keysByPartialCompositeKey_error (sortedKeys ledger) _ _ _ hfail
    refine ⟨[], listed, .nil, fun slot ↦ ?_, hperm, hlatest, fun client now grades ↦ ?_⟩
    · have hslot := slot.2
      simp only [List.not_mem_nil, false_iff, not_and]
      intro hid
      simp [hid, hpart] at hslot
    · rw [result_queryStudentGrades ⟨stub, client, now⟩ hstub hwell]
      cases queriedStudent ledger client id with
      | error abort => simp [hpart]
      | ok student => simp [hfail', hpart]

/-- `QueryAllStudents`, page by page, lists the visible records in the order of the IDs. -/
theorem walkStudents_eq {limit : ℕ} {entries : Int32 → Option ℕ}
    (hscan : stub.ScansPages limit entries) (h : StoredIn register ledger)
    (hwell : WellFormed ledger) {client : ClientIdentity} (hmanager : IsManager client) (now : Time)
    {pageSize : Int64} (hpos : 1 ≤ pageSize) (hlt : pageSize.toInt < 2 ^ 31)
    (hlimit : pageSize.toInt ≤ limit) :
    ∃ students, (∀ fuel, (sortedKeys ledger).length < fuel →
        walkStudents ⟨stub, client, now⟩ ledger pageSize fuel = some (.ok students)) ∧
      students.Pairwise (fun student later ↦ student.id < later.id) ∧
      ∀ student, student ∈ students ↔
        (∃ id, register.record id = some student) ∧ ListedFor client.mspID student := by
  obtain ⟨hentries, hsize⟩ := hscan.entries_toInt32 hpos hlt hlimit
  have hbounded : entries pageSize.toInt32 ≠ some 0 := by
    rw [hentries]
    exact fun hzero ↦ hsize (Option.some.inj hzero)
  refine ⟨_, fun fuel hfuel ↦ Chaincode.walkStudents_eq hscan hwell hmanager now hbounded hfuel,
    hwell.pairwise_listedRecords _ (pairwise_scannedKeys ledger ""), fun student ↦ ?_⟩
  rw [hwell.mem_visibleStudents]
  refine and_congr_left fun _ ↦ ⟨?_, ?_⟩
  · rintro ⟨key, hplain, hrecord⟩
    have hstored := recordAt_eq_some_iff.mp hrecord
    obtain ⟨text, hvalue, -⟩ := (Chaincode.storedStudent_eq_ok_iff ledger).mp hstored
    let id : StudentID := ⟨key, (hwell.of_value hvalue).1, hplain⟩
    exact ⟨id, (h.storedStudent_eq_ok_iff id).mp hstored⟩
  · rintro ⟨id, hrecord⟩
    exact ⟨id.1, id.2.2, recordAt_eq_some_iff.mpr ((h.storedStudent_eq_ok_iff id).mpr hrecord)⟩

end StoredIn

/-! ### The register of a run -/

variable {stub : Stub}

/-- After every run that keeps the IDs of students apart from composite keys, the read operations
answer from the register to which the run leads. -/
theorem answers_from_register (hstub : stub.Lawful) {txs : List Transaction} {ledger : Ledger}
    (h : Reaches stub txs ledger) (hplain : ∀ tx ∈ txs, KeepsPlain tx) :
    ∃ register, Register.Runs txs register ∧
      (∀ client now (id : StudentID) student,
        (queryStudent id).result (Context.answer ⟨stub, client, now⟩ ledger) = .ok student ↔
          (client.id = id ∨ IsManager client) ∧ register.record id = some student ∧
            MaySee client id student) ∧
      (∀ id : StudentID, ∃ (slots : List GradeSlot) (listed : GradeSlot → List Grade),
        slots.Pairwise (fun slot later ↦ slot.1.2 < later.1.2) ∧
        (∀ slot, slot ∈ slots ↔ slot.1.1 = id.1 ∧ register.grades slot ≠ []) ∧
        (∀ slot, (listed slot).Perm (register.grades slot)) ∧
        ((∀ values, stub.historyForKey values = .ok values) → listed = register.grades) ∧
        ∀ client now grades,
          (queryStudentGrades id).result (Context.answer ⟨stub, client, now⟩ ledger) = .ok grades ↔
            (client.id = id ∨ IsManager client) ∧
            (∃ student, register.record id = some student ∧ MaySee client id student) ∧
            isCompositeKeyPart id.1 ∧
            grades = slots.flatMap fun slot ↦ (listed slot).map (Grade.entry slot.key)) ∧
      ∀ limit entries, stub.ScansPages limit entries → ∀ client now, IsManager client →
        ∀ pageSize : Int64, 1 ≤ pageSize → pageSize.toInt < 2 ^ 31 → pageSize.toInt ≤ limit →
        ∃ students, (∀ fuel, (sortedKeys ledger).length < fuel →
            walkStudents ⟨stub, client, now⟩ ledger pageSize fuel = some (.ok students)) ∧
          students.Pairwise (fun student later ↦ student.id < later.id) ∧
          ∀ student, student ∈ students ↔
            (∃ id, register.record id = some student) ∧ ListedFor client.mspID student := by
  have hwell := h.wellFormed
  obtain ⟨register, hruns, hstored⟩ := (refines_register hstub txs).1 ledger h hplain
  refine ⟨register, hruns,
    fun client now id student ↦ hstored.queryStudent_iff client now id student,
    fun id ↦ hstored.queryStudentGrades_iff hstub hwell id, ?_⟩
  intro limit entries hscan client now hmanager pageSize hpos hlt hlimit
  exact hstored.walkStudents_eq hscan hwell hmanager now hpos hlt hlimit

theorem keepsPlain_enrolment : KeepsPlain enrolment := by
  intro key hkey
  rw [enrolment, Command.studentKey, unmarshal_marshal] at hkey
  cases hkey
  decide

theorem keepsPlain_grading : KeepsPlain grading := by
  rintro key ⟨⟩

theorem keepsPlain_relocation : KeepsPlain relocation := by
  rintro key ⟨⟩
  decide

theorem answers_from_register_grading :
    ∃ register, Register.Runs [grading, enrolment] register ∧
      register.record ⟨"s1", by decide⟩ = some ada := by
  have hplain : ∀ tx ∈ [grading, enrolment], KeepsPlain tx := by
    intro tx htx
    rcases List.mem_pair.mp htx with rfl | rfl
    · exact keepsPlain_grading
    · exact keepsPlain_enrolment
  obtain ⟨register, hruns, hstudent, -⟩ :=
    answers_from_register fabricStub_lawful reaches_grading hplain
  have hqueried := queriedStudent_ada adaGrade.id (marshal adaGrade) (by decide +kernel)
  have hada := (hstudent school1Manager noon ⟨"s1", by decide⟩ ada).mp
    ((result_queryStudent _ _ _).trans hqueried)
  exact ⟨register, hruns, hada.2.1⟩

/-- Whatever clients do concurrently, the committed ledger stores the register to which the
committed transactions lead in commit order; and every run of the register is a run of the
network. -/
theorem network_refines_register (hstub : stub.Lawful) :
    (∀ network : Network String String Transaction, Optimistic.Reachable (execute stub) network →
      (∀ endorsed ∈ network.committed, KeepsPlain endorsed.tx) →
      ∃ register, Register.Runs (network.committed.map Endorsed.tx) register ∧
        StoredIn register network.chain) ∧
    ∀ txs register, Register.Runs txs register →
      ∃ network : Network String String Transaction, Optimistic.Reachable (execute stub) network ∧
        network.committed.map Endorsed.tx = txs ∧ StoredIn register network.chain := by
  constructor
  · intro network hnetwork hplain
    have hreaches : Reaches stub _ network.chain :=
      hnetwork.replay_committed (readsDetermine_execute stub)
    refine (refines_register hstub _).1 _ hreaches ?_
    rintro _ htx
    obtain ⟨endorsed, hmem, rfl⟩ := List.mem_map.mp htx
    exact hplain endorsed hmem
  · intro txs register hruns
    obtain ⟨ledger, hreaches, hstored⟩ := (refines_register hstub txs).2 register hruns
    obtain ⟨network, hnetwork, rfl, hcommitted⟩ := Optimistic.Reachable.of_replay hreaches
    exact ⟨network, hnetwork, hcommitted, hstored⟩

/-- The grade and the move that were endorsed at the same time, both committed. -/
theorem reachable_settled : Optimistic.Reachable (execute fabricStub)
    ⟨[moved.writes, graded.writes, enrolled.writes], [], [moved, graded, enrolled]⟩ :=
  (reachable_racing.step (Step.commit_head rfl (by decide))).step
    (Step.commit_head rfl (by decide))

theorem network_refines_register_settled :
    ∃ register, Register.Runs [relocation, grading, enrolment] register ∧
      StoredIn register [moved.writes, graded.writes, enrolled.writes] := by
  refine (network_refines_register fabricStub_lawful).1 _ reachable_settled ?_
  intro endorsed hmem
  simp only [List.mem_cons, List.not_mem_nil, or_false] at hmem
  rcases hmem with rfl | rfl | rfl
  · exact keepsPlain_relocation
  · exact keepsPlain_grading
  · exact keepsPlain_enrolment

end StudentStatus.Chaincode
