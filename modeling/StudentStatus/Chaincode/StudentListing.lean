import StudentStatus.Chaincode.WriteIsolation
import StudentStatus.Paging.Cursor

/-!
# Listing the students page by page

`QueryAllStudents` asks the stub for a page of the whole key space and filters the records of the
page by the client's MSP. What the stub does is the assumption `Stub.ScansPages`. On an unchanged
ledger the client that feeds each bookmark back sees every record that it may see, once and in the
order of the keys, whatever the page size (`walkStudents_visibleStudents`).

One page of it depends on other schools' students, since it is cut before it is filtered. It is the
page of the ledger without their records exactly when the rest of the keys fits on it or none of
their records is among its keys and the key after them (`queryAllStudents_withoutForeign`).
-/

set_option autoImplicit false
set_option relaxedAutoImplicit false

namespace StudentStatus.Chaincode

open Interaction Optimistic Json Paging

/-! ### The scan -/

/-- Where a scan of the whole key space starts: at the bookmark, or after the composite keys. -/
def scanStart (bookmark : String) : String := if bookmark = "" then "\x01" else bookmark

/-- The keys from a bookmark on. -/
def scannedKeys (ledger : Ledger) (bookmark : String) : List String :=
  startingAt (scanStart bookmark) (sortedKeys ledger)

/-- What is documented about `GetStateByRangeWithPagination` with an empty start and an empty end:
it returns the first keys from the bookmark on and, as the bookmark, the key after them, which is
empty when there is none. `entries` is how many keys a page of a size has; up to the peer's limit
it is the size. -/
structure Stub.ScansPages (stub : Stub) (limit : ℕ) (entries : Int32 → Option ℕ) : Prop where
  keysByRange_eq : ∀ keys size bookmark, stub.keysByRange keys "" "" size bookmark =
    .ok ((page (entries size) (startingAt (scanStart bookmark) keys)).1,
      (page (entries size) (startingAt (scanStart bookmark) keys)).2.getD "")
  entries_eq : ∀ size : Int32, 0 < size → size.toInt ≤ limit → entries size = some size.toInt.toNat

/-- The pages of `fabricStub` are unbounded for sizes that are not positive. -/
def fabricEntries (size : Int32) : Option ℕ := if size ≤ 0 then none else some size.toInt.toNat

theorem fabricStub_scansPages (limit : ℕ) : fabricStub.ScansPages limit fabricEntries where
  keysByRange_eq keys size bookmark := by
    have hstart : (if bookmark ≠ "" then bookmark else if "" = "" then "\x01" else "") =
        scanStart bookmark := by
      unfold scanStart
      split_ifs <;> first | rfl | contradiction
    have hrange : (keys.filter fun key ↦ scanStart bookmark ≤ key ∧ ("" = "" ∨ key < "")) =
        startingAt (scanStart bookmark) keys :=
      List.filter_congr fun key _ ↦ by simp
    have hpage : fabricStub.keysByRange keys "" "" size bookmark =
        .ok ((startingAt (scanStart bookmark) keys).take
          (if size ≤ 0 then (startingAt (scanStart bookmark) keys).length else size.toInt.toNat),
          ((startingAt (scanStart bookmark) keys)[if size ≤ 0 then
            (startingAt (scanStart bookmark) keys).length else size.toInt.toNat]?).getD "") := by
      unfold fabricStub
      dsimp only
      rw [hstart, hrange]
    rw [hpage, fabricEntries]
    split_ifs with hsize
    · simp [page, onPage, afterPage]
    · simp [page, onPage, afterPage, List.head?_drop]
  entries_eq size hpos _ := if_neg (Int32.not_le.mpr hpos)

/-! ### One page -/

/-- A listing for the MSP shows the record. -/
def ListedFor (msp : String) (student : Student) : Prop :=
  msp = educationBureauMSP ∨ student.school = msp

instance (msp : String) (student : Student) : Decidable (ListedFor msp student) :=
  inferInstanceAs (Decidable (_ ∨ _))

/-- The records at some keys that a listing for the MSP shows. -/
def listedRecords (ledger : Ledger) (msp : String) (keys : List String) : List Student :=
  (keys.filterMap (recordAt ledger)).filter fun student ↦ ListedFor msp student

theorem listedRecords_append (ledger : Ledger) (msp : String) (first rest : List String) :
    listedRecords ledger msp (first ++ rest) =
      listedRecords ledger msp first ++ listedRecords ledger msp rest := by
  rw [listedRecords, List.filterMap_append, List.filter_append]
  rfl

theorem mem_listedRecords {ledger : Ledger} {msp : String} {keys : List String}
    {student : Student} : student ∈ listedRecords ledger msp keys ↔
      (∃ key ∈ keys, recordAt ledger key = some student) ∧ ListedFor msp student := by
  rw [listedRecords, List.mem_filter, List.mem_filterMap, decide_eq_true_eq]

theorem WellFormed.id_of_recordAt {ledger : Ledger} (h : WellFormed ledger) {key : String}
    {student : Student} (hrecord : recordAt ledger key = some student) : student.id = key :=
  h.id_of_stored (recordAt_eq_some_iff.mp hrecord)

variable {stub : Stub} {limit : ℕ} {entries : Int32 → Option ℕ} {ledger : Ledger}

theorem HoldsStudent.recordAt_eq {key : String} {student : Student}
    (h : HoldsStudent ledger key student) : recordAt ledger key = some student := by
  rw [recordAt, h, Option.bind_some, unmarshal_marshal]
  rfl

theorem listedRecords_singleton {msp key : String} {student : Student}
    (h : HoldsStudent ledger key student) :
    listedRecords ledger msp [key] = if ListedFor msp student then [student] else [] := by
  rw [listedRecords, List.filterMap_cons, h.recordAt_eq, List.filterMap_nil, List.filter_singleton,
    Bool.cond_decide]

/-- The answer of `QueryAllStudents` to a manager: the records on the page that its MSP may see,
and the key after the page. -/
theorem queryAllStudents_eq (hscan : stub.ScansPages limit entries) (h : WellFormed ledger)
    {client : ClientIdentity} (hmanager : IsManager client) (now : Time) (pageSize : Int64)
    (bookmark : String) :
    (queryAllStudents pageSize bookmark).result (Context.answer ⟨stub, client, now⟩ ledger) = .ok
      { items := listedRecords ledger client.mspID
          (onPage (entries pageSize.toInt32) (scannedKeys ledger bookmark))
        bookmark :=
          ((afterPage (entries pageSize.toInt32)
            (scannedKeys ledger bookmark)).head?).getD "" } := by
  unfold IsManager at hmanager
  rw [result_queryAllStudents ⟨stub, client, now⟩ h]
  simp only [hmanager, hscan.keysByRange_eq]
  rfl

/-! ### The walk -/

/-- A page of the listing as a step of the walk: its items, and where to go on. -/
def fetchStudents (ctx : Context) (ledger : Ledger) (pageSize : Int64) (bookmark : String) :
    Except Abort (List Student × String) :=
  ((queryAllStudents pageSize bookmark).result (ctx.answer ledger)).map fun page ↦
    (page.items, page.bookmark)

theorem fetchStudents_eq (hscan : stub.ScansPages limit entries) (h : WellFormed ledger)
    {client : ClientIdentity} (hmanager : IsManager client) (now : Time) (pageSize : Int64)
    (bookmark : String) :
    fetchStudents ⟨stub, client, now⟩ ledger pageSize bookmark = .ok
      (listedRecords ledger client.mspID
        (onPage (entries pageSize.toInt32) (scannedKeys ledger bookmark)),
      ((afterPage (entries pageSize.toInt32) (scannedKeys ledger bookmark)).head?).getD "") := by
  rw [fetchStudents, queryAllStudents_eq hscan h hmanager]
  rfl

/-- List the pages from the empty bookmark on, each from the bookmark of the one before it, until a
bookmark is empty. -/
def walkStudents (ctx : Context) (ledger : Ledger) (pageSize : Int64) (fuel : ℕ) :
    Option (Except Abort (List Student)) :=
  walk (fetchStudents ctx ledger pageSize) "" fuel ""

/-- All records that a listing for the MSP shows, in the order of their keys. -/
def visibleStudents (ledger : Ledger) (msp : String) : List Student :=
  listedRecords ledger msp (scannedKeys ledger "")

theorem pairwise_scannedKeys (ledger : Ledger) (bookmark : String) :
    (scannedKeys ledger bookmark).Pairwise (· < ·) :=
  (pairwise_sortedKeys ledger).filter _

theorem WellFormed.ne_empty_of_mem (h : WellFormed ledger) {bookmark key : String}
    (hkey : key ∈ scannedKeys ledger bookmark) : key ≠ "" := by
  obtain ⟨text, hvalue⟩ :=
    Option.isSome_iff_exists.mp (mem_sortedKeys.mp (mem_startingAt.mp hkey).1)
  exact (h.of_value hvalue).1

/-- Going on from the bookmark of a page, the keys after the page are scanned. -/
theorem WellFormed.scannedKeys_of_page (h : WellFormed ledger) {size : Option ℕ}
    {bookmark next : String} (hnext : (page size (scannedKeys ledger bookmark)).2 = some next) :
    scannedKeys ledger next = afterPage size (scannedKeys ledger bookmark) := by
  have hmem : next ∈ scannedKeys ledger bookmark := by
    rw [← onPage_append_afterPage size (scannedKeys ledger bookmark)]
    exact List.mem_append_right _ (List.mem_of_head? hnext)
  rw [← startingAt_of_page (pairwise_scannedKeys ledger bookmark) hnext]
  unfold scannedKeys
  rw [startingAt_startingAt (mem_startingAt.mp hmem).2, scanStart,
    if_neg (h.ne_empty_of_mem hmem)]

/-- The walk of a manager yields the records of all scanned keys. -/
theorem walkStudents_eq (hscan : stub.ScansPages limit entries) (h : WellFormed ledger)
    {client : ClientIdentity} (hmanager : IsManager client) (now : Time) {pageSize : Int64}
    (hsize : entries pageSize.toInt32 ≠ some 0) {fuel : ℕ}
    (hfuel : (sortedKeys ledger).length < fuel) :
    walkStudents ⟨stub, client, now⟩ ledger pageSize fuel =
      some (.ok (visibleStudents ledger client.mspID)) := by
  refine walk_eq (fun bookmark keys ↦ scannedKeys ledger bookmark = keys)
    (listedRecords ledger client.mspID) hsize (listedRecords_append ledger client.mspID) ?_ rfl
    ((List.length_filter_le _ _).trans_lt hfuel)
  rintro bookmark _ rfl
  refine ⟨_, fetchStudents_eq hscan h hmanager now pageSize bookmark, ?_, ?_⟩
  · cases hrest : afterPage (entries pageSize.toInt32) (scannedKeys ledger bookmark) with
    | nil => simp
    | cons next rest =>
      have hmem : next ∈ scannedKeys ledger bookmark := by
        rw [← onPage_append_afterPage (entries pageSize.toInt32) (scannedKeys ledger bookmark),
          hrest]
        exact List.mem_append_right _ List.mem_cons_self
      simp [h.ne_empty_of_mem hmem]
  · intro hmore
    cases hrest : (afterPage (entries pageSize.toInt32) (scannedKeys ledger bookmark)).head? with
    | none => exact absurd (by rw [hrest]; rfl) hmore
    | some next => exact h.scannedKeys_of_page hrest

/-! ### What the walk yields -/

/-- U+0001 comes before every text but those that begin with U+0000. -/
theorem one_le_iff {key : String} (hkey : key ≠ "") :
    "\x01" ≤ key ↔ key.toList.head? ≠ some minUnicodeRune := by
  have hchar (c : Char) : '\x01' ≤ c ↔ c ≠ minUnicodeRune := by
    rw [Char.le_def, UInt32.le_iff_toNat_le, Ne, Char.ext_iff, ← UInt32.toNat_inj]
    change 1 ≤ c.val.toNat ↔ ¬ c.val.toNat = 0
    omega
  rw [String.le_iff_toList_le]
  cases hlist : key.toList with
  | nil => exact absurd (String.toList_eq_nil_iff.mp hlist) hkey
  | cons c rest =>
    change ['\x01'] ≤ c :: rest ↔ some c ≠ some minUnicodeRune
    rw [← not_lt, List.cons_lt_cons_iff, Ne, Option.some.injEq]
    simpa using hchar c

/-- The walk starts at the keys that do not begin with U+0000. -/
theorem WellFormed.mem_scannedKeys_empty (h : WellFormed ledger) {key : String} :
    key ∈ scannedKeys ledger "" ↔
      (ledger.value key).isSome ∧ key.toList.head? ≠ some minUnicodeRune := by
  rw [scannedKeys, mem_startingAt, mem_sortedKeys]
  refine and_congr_right fun hsome ↦ one_le_iff ?_
  obtain ⟨text, hvalue⟩ := Option.isSome_iff_exists.mp hsome
  exact (h.of_value hvalue).1

/-- The walk shows every record at a key that does not begin with U+0000 and that the MSP may
see. -/
theorem WellFormed.mem_visibleStudents (h : WellFormed ledger) {msp : String} {student : Student} :
    student ∈ visibleStudents ledger msp ↔
      (∃ key, key.toList.head? ≠ some minUnicodeRune ∧ recordAt ledger key = some student) ∧
        ListedFor msp student := by
  rw [visibleStudents, mem_listedRecords]
  refine and_congr_left fun _ ↦ exists_congr fun key ↦ ?_
  rw [h.mem_scannedKeys_empty, and_assoc]
  refine ⟨And.right, fun hkey ↦ ⟨?_, hkey⟩⟩
  cases hvalue : ledger.value key with
  | none => simp [recordAt, hvalue] at hkey
  | some text => rfl

/-- The records at some keys stand in the order of the keys. -/
theorem WellFormed.pairwise_listedRecords (h : WellFormed ledger) (msp : String)
    {keys : List String} (hkeys : keys.Pairwise (· < ·)) :
    (listedRecords ledger msp keys).Pairwise fun earlier later ↦ earlier.id < later.id := by
  refine (List.pairwise_filterMap.mpr (hkeys.imp ?_)).filter _
  intro key key' hlt student hstudent student' hstudent'
  rw [h.id_of_recordAt hstudent, h.id_of_recordAt hstudent']
  exact hlt

/-- A page size that fits in 32 bits is passed on as it is. -/
theorem toInt_toInt32 {pageSize : Int64} (hpos : 1 ≤ pageSize) (hlt : pageSize.toInt < 2 ^ 31) :
    pageSize.toInt32.toInt = pageSize.toInt := by
  have hone : (1 : ℤ) ≤ pageSize.toInt := Int64.le_iff_toInt_le.mp hpos
  rw [Int64.toInt_toInt32]
  exact Int.bmod_eq_of_le (by omega) (by omega)

/-- A page size up to the peer's limit gives pages of that size, which is not zero. -/
theorem Stub.ScansPages.entries_toInt32 (hscan : stub.ScansPages limit entries) {pageSize : Int64}
    (hpos : 1 ≤ pageSize) (hlt : pageSize.toInt < 2 ^ 31) (hlimit : pageSize.toInt ≤ limit) :
    entries pageSize.toInt32 = some pageSize.toInt.toNat ∧ pageSize.toInt.toNat ≠ 0 := by
  have hone : (1 : ℤ) ≤ pageSize.toInt := Int64.le_iff_toInt_le.mp hpos
  have hsize := toInt_toInt32 hpos hlt
  have hpos32 : (0 : Int32) < pageSize.toInt32 := by
    rw [Int32.lt_iff_toInt_lt, hsize]
    exact hone
  refine ⟨?_, by omega⟩
  rw [hscan.entries_eq _ hpos32 (hsize ▸ hlimit), hsize]

/-- On a reachable ledger the walk of a manager ends, whatever the page size, with the records at
all keys that do not begin with U+0000 and that its MSP may see, in the order of the keys. -/
theorem walkStudents_visibleStudents (hscan : stub.ScansPages limit entries)
    (h : Reachable stub ledger) {client : ClientIdentity} (hmanager : IsManager client) (now : Time)
    {pageSize : Int64} (hpos : 1 ≤ pageSize) (hlt : pageSize.toInt < 2 ^ 31)
    (hlimit : pageSize.toInt ≤ limit) :
    (∀ fuel, (sortedKeys ledger).length < fuel →
      walkStudents ⟨stub, client, now⟩ ledger pageSize fuel =
        some (.ok (visibleStudents ledger client.mspID))) ∧
    (∀ key student, recordAt ledger key = some student → student.id = key) ∧
    (visibleStudents ledger client.mspID).Pairwise (fun earlier later ↦ earlier.id < later.id) ∧
    ∀ student, student ∈ visibleStudents ledger client.mspID ↔
      (∃ key, key.toList.head? ≠ some minUnicodeRune ∧ recordAt ledger key = some student) ∧
        ListedFor client.mspID student := by
  have hwell := h.wellFormed
  obtain ⟨hentries, hsize⟩ := hscan.entries_toInt32 hpos hlt hlimit
  have hbounded : entries pageSize.toInt32 ≠ some 0 := by
    rw [hentries]
    exact fun hzero ↦ hsize (Option.some.inj hzero)
  refine ⟨fun fuel hfuel ↦ walkStudents_eq hscan hwell hmanager now hbounded hfuel,
    fun key student ↦ hwell.id_of_recordAt,
    hwell.pairwise_listedRecords _ (pairwise_scannedKeys ledger ""),
    fun student ↦ hwell.mem_visibleStudents⟩

/-- A student of the second school, whose ID comes before the first school's. -/
def carol : Student := ⟨"s0", "Carol", 2023, "Physics", "School2MSP", false, noon.format⟩

/-- The second school enrols its student. -/
def carolEnrolment : Transaction := ⟨school2Manager, noon, .createStudent (marshal carol)⟩

/-- Each school has enrolled one student. -/
def bothEnrolled : Ledger := [[("s0", marshal carol)], [("s1", marshal ada)]]

theorem reaches_bothEnrolled : Reaches fabricStub [carolEnrolment, enrolment] bothEnrolled := by
  have accepts : CreateAccepts (carolEnrolment.context fabricStub) [[("s1", marshal ada)]]
      (marshal carol) carol :=
    { manager := isManager_school2Manager
      decoded := unmarshal_marshal carol
      fresh := by
        rw [Chain.value_cons_singleton, if_neg (by decide)]
        rfl
      school := fun _ ↦ by decide
      named := by decide
      keyed := by decide }
  exact reaches_enrolment.cons (.create accepts)

theorem reachable_bothEnrolled : Reachable fabricStub bothEnrolled := ⟨_, reaches_bothEnrolled⟩

theorem scannedKeys_bothEnrolled : scannedKeys bothEnrolled "" = ["s0", "s1"] := by
  decide +kernel

theorem holdsStudent_carol : HoldsStudent bothEnrolled "s0" carol := by
  rw [HoldsStudent, bothEnrolled, Chain.value_cons_singleton, if_pos rfl]

theorem holdsStudent_ada : HoldsStudent bothEnrolled "s1" ada := by
  rw [HoldsStudent, bothEnrolled, Chain.value_cons_singleton, if_neg (by decide)]
  exact value_ada

theorem visibleStudents_bothEnrolled : visibleStudents bothEnrolled "School1MSP" = [ada] := by
  have hsplit := listedRecords_append bothEnrolled "School1MSP" ["s0"] ["s1"]
  rw [listedRecords_singleton holdsStudent_carol, if_neg (by decide),
    listedRecords_singleton holdsStudent_ada, if_pos (by decide)] at hsplit
  rw [visibleStudents, scannedKeys_bothEnrolled]
  exact hsplit

theorem walkStudents_bothEnrolled :
    walkStudents ⟨fabricStub, school1Manager, noon⟩ bothEnrolled 1 3 = some (.ok [ada]) := by
  rw [← visibleStudents_bothEnrolled]
  exact (walkStudents_visibleStudents (fabricStub_scansPages 100000) reachable_bothEnrolled
    isManager_school1Manager noon (by decide) (by decide) (by decide)).1 3 (by decide +kernel)

/-! ### Without the records of other schools -/

/-- The record of another school's student is stored under the key. -/
def HoldsForeign (ledger : Ledger) (msp key : String) : Prop :=
  ∃ student, HoldsStudent ledger key student ∧ student.school ≠ msp

theorem holdsForeign_iff {ledger : Ledger} {msp key : String} :
    HoldsForeign ledger msp key ↔ (recordAt ledger key).any fun student ↦
      ledger.value key = some (marshal student) ∧ student.school ≠ msp := by
  rw [Option.any_eq_true]
  simp only [decide_eq_true_eq]
  constructor
  · rintro ⟨student, hholds, hschool⟩
    exact ⟨student, hholds.recordAt_eq, hholds, hschool⟩
  · rintro ⟨student, -, hholds, hschool⟩
    exact ⟨student, hholds, hschool⟩

instance (ledger : Ledger) (msp key : String) : Decidable (HoldsForeign ledger msp key) :=
  decidable_of_iff _ holdsForeign_iff.symm

/-- The ledger from which the records of other schools' students have been removed. -/
def withoutForeign (ledger : Ledger) (msp : String) : Ledger :=
  Chain.restrict (fun key ↦ ¬ HoldsForeign ledger msp key) ledger

/-- The page does not depend on other schools' students: the keys from the bookmark on fit on it,
or none of their records is among its keys and the key after them. -/
def PageUndisturbed (ledger : Ledger) (msp bookmark : String) (size : Option ℕ) : Prop :=
  ∀ entries, size = some entries → (scannedKeys ledger bookmark).length ≤ entries ∨
    ∀ key ∈ (scannedKeys ledger bookmark).take (entries + 1), ¬ HoldsForeign ledger msp key

theorem sortedKeys_restrict (kept : String → Bool) (ledger : Ledger) :
    sortedKeys (Chain.restrict kept ledger) = (sortedKeys ledger).filter kept := by
  refine List.Perm.eq_of_pairwise' ?_ ((pairwise_sortedKeys ledger).filter kept) ?_
  · exact pairwise_sortedKeys _
  · refine (List.perm_ext_iff_of_nodup (nodup_sortedKeys _)
      ((nodup_sortedKeys ledger).filter kept)).mpr fun key ↦ ?_
    rw [mem_sortedKeys, List.mem_filter, mem_sortedKeys, Chain.value_restrict]
    cases kept key <;> simp

theorem scannedKeys_restrict (kept : String → Bool) (ledger : Ledger) (bookmark : String) :
    scannedKeys (Chain.restrict kept ledger) bookmark =
      (scannedKeys ledger bookmark).filter kept := by
  rw [scannedKeys, sortedKeys_restrict, startingAt_filter]
  rfl

theorem WellFormed.restrict (h : WellFormed ledger) (kept : String → Bool) :
    WellFormed (Chain.restrict kept ledger) := by
  intro key text hmem
  rw [Chain.history_restrict] at hmem
  split_ifs at hmem with hkept
  · exact h key text hmem
  · cases hmem

/-- A record that is not stored as a student of another school is still there. -/
theorem recordAt_withoutForeign {msp key : String} (hkey : ¬ HoldsForeign ledger msp key) :
    recordAt (withoutForeign ledger msp) key = recordAt ledger key := by
  rw [recordAt, withoutForeign, Chain.value_restrict, if_pos (decide_eq_true hkey)]
  rfl

/-- What is stored as a student of another school is not shown. -/
theorem listedRecords_of_foreign {msp : String} (hmsp : msp ≠ educationBureauMSP) {key : String}
    (hkey : HoldsForeign ledger msp key) : listedRecords ledger msp [key] = [] := by
  obtain ⟨student, hholds, hschool⟩ := hkey
  rw [listedRecords_singleton hholds, if_neg]
  exact fun hlisted ↦ hlisted.elim hmsp hschool

/-- Without the records of other schools' students the same records are shown. -/
theorem listedRecords_withoutForeign {msp : String} (hmsp : msp ≠ educationBureauMSP)
    (keys : List String) :
    listedRecords (withoutForeign ledger msp) msp
      (keys.filter fun key ↦ ¬ HoldsForeign ledger msp key) = listedRecords ledger msp keys := by
  induction keys with
  | nil => rfl
  | cons key keys ih =>
    have hsplit := listedRecords_append ledger msp [key] keys
    rw [List.singleton_append] at hsplit
    by_cases hkey : HoldsForeign ledger msp key
    · rw [List.filter_cons_of_neg (by simpa using hkey), ih, hsplit,
        listedRecords_of_foreign hmsp hkey, List.nil_append]
    · have hone : listedRecords (withoutForeign ledger msp) msp [key] =
          listedRecords ledger msp [key] := by
        rw [listedRecords, List.filterMap_cons, recordAt_withoutForeign hkey]
        rfl
      rw [List.filter_cons_of_pos (by simpa using hkey), hsplit, ← hone, ← ih,
        ← listedRecords_append, List.singleton_append]

theorem scannedKeys_withoutForeign (ledger : Ledger) (msp bookmark : String) :
    scannedKeys (withoutForeign ledger msp) bookmark =
      (scannedKeys ledger bookmark).filter fun key ↦ ¬ HoldsForeign ledger msp key :=
  scannedKeys_restrict _ ledger bookmark

/-- A text that is not empty is told from its absence. -/
theorem getD_empty_inj {found other : Option String} (hfound : ∀ key ∈ found, key ≠ "")
    (hother : ∀ key ∈ other, key ≠ "") : found.getD "" = other.getD "" ↔ found = other := by
  cases found <;> cases other <;> simp_all [eq_comm]

/-- The bookmark is the same without the records of other schools' students exactly when the page
does not depend on them. -/
theorem bookmark_withoutForeign (h : WellFormed ledger) (msp bookmark : String)
    (size : Option ℕ) :
    ((afterPage size (scannedKeys (withoutForeign ledger msp) bookmark)).head?).getD "" =
        ((afterPage size (scannedKeys ledger bookmark)).head?).getD "" ↔
      PageUndisturbed ledger msp bookmark size := by
  cases size with
  | none => simp [afterPage, PageUndisturbed]
  | some entries =>
    have hnodup : (scannedKeys ledger bookmark).Nodup :=
      (pairwise_scannedKeys ledger bookmark).imp fun hlt ↦ hlt.ne
    have hne : ∀ key ∈ (scannedKeys ledger bookmark)[entries]?, key ≠ "" := fun key hkey ↦
      h.ne_empty_of_mem (List.mem_of_getElem? hkey)
    have hne' : ∀ key ∈ ((scannedKeys ledger bookmark).filter fun key ↦
        ¬ HoldsForeign ledger msp key)[entries]?, key ≠ "" := fun key hkey ↦
      h.ne_empty_of_mem (List.mem_filter.mp (List.mem_of_getElem? hkey)).1
    rw [scannedKeys_withoutForeign, afterPage, afterPage, List.head?_drop, List.head?_drop,
      getD_empty_inj hne' hne, getElem?_filter_eq_iff hnodup]
    simp [PageUndisturbed]

/-- A page that does not depend on other schools' students shows the same records without them. -/
theorem items_withoutForeign {msp : String} (hmsp : msp ≠ educationBureauMSP) {bookmark : String}
    {size : Option ℕ} (hpage : PageUndisturbed ledger msp bookmark size) :
    listedRecords (withoutForeign ledger msp) msp
        (onPage size (scannedKeys (withoutForeign ledger msp) bookmark)) =
      listedRecords ledger msp (onPage size (scannedKeys ledger bookmark)) := by
  rw [scannedKeys_withoutForeign]
  cases size with
  | none => exact listedRecords_withoutForeign hmsp _
  | some entries =>
    rcases hpage entries rfl with hlength | hkept
    · -- everything that is left is on the page
      have hlength' := (List.length_filter_le (fun key ↦ ¬ HoldsForeign ledger msp key) _).trans
        hlength
      rw [onPage, onPage, List.take_of_length_le hlength', List.take_of_length_le hlength]
      exact listedRecords_withoutForeign hmsp _
    · have hpage : ∀ key ∈ onPage (some entries) (scannedKeys ledger bookmark),
          decide (¬ HoldsForeign ledger msp key) = true := fun key hkey ↦
        decide_eq_true (hkept key (List.take_subset_take_left _ (Nat.le_succ entries) hkey))
      rw [onPage_filter hpage]
      conv_lhs => rw [← List.filter_eq_self.mpr hpage]
      exact listedRecords_withoutForeign hmsp _

/-- The listing of a school's manager is cut from the whole ledger and then filtered. It is that of
the ledger without other schools' records exactly when the page does not depend on them; the whole
walk always is. A page has as many keys as was asked for, within 32 bits and the peer's limit. -/
theorem queryAllStudents_withoutForeign (hscan : stub.ScansPages limit entries)
    (h : Reachable stub ledger) {client : ClientIdentity}
    (hmsp : client.mspID ≠ educationBureauMSP) (hmanager : IsManager client) (now : Time)
    {pageSize : Int64} (hpos : 1 ≤ pageSize) (bookmark : String) :
    (queryAllStudents pageSize bookmark).result (Context.answer ⟨stub, client, now⟩ ledger) = .ok
      { items := listedRecords ledger client.mspID
          (onPage (entries pageSize.toInt32) (scannedKeys ledger bookmark))
        bookmark :=
          ((afterPage (entries pageSize.toInt32) (scannedKeys ledger bookmark)).head?).getD "" } ∧
    ((queryAllStudents pageSize bookmark).result
        (Context.answer ⟨stub, client, now⟩ (withoutForeign ledger client.mspID)) =
      (queryAllStudents pageSize bookmark).result (Context.answer ⟨stub, client, now⟩ ledger) ↔
        PageUndisturbed ledger client.mspID bookmark (entries pageSize.toInt32)) ∧
    (pageSize.toInt < 2 ^ 31 → pageSize.toInt ≤ limit →
      entries pageSize.toInt32 = some pageSize.toInt.toNat ∧
      ∀ fuel, (sortedKeys ledger).length < fuel →
        walkStudents ⟨stub, client, now⟩ (withoutForeign ledger client.mspID) pageSize fuel =
          walkStudents ⟨stub, client, now⟩ ledger pageSize fuel) := by
  have hwell := h.wellFormed
  have hwell' : WellFormed (withoutForeign ledger client.mspID) := hwell.restrict _
  refine ⟨queryAllStudents_eq hscan hwell hmanager now pageSize bookmark, ?_, ?_⟩
  · rw [queryAllStudents_eq hscan hwell hmanager, queryAllStudents_eq hscan hwell' hmanager,
      Except.ok.injEq, PaginationQueryResult.mk.injEq, bookmark_withoutForeign hwell]
    exact ⟨And.right, fun hpage ↦ ⟨items_withoutForeign hmsp hpage, hpage⟩⟩
  · intro hlt hlimit
    obtain ⟨hentries, hsize⟩ := hscan.entries_toInt32 hpos hlt hlimit
    refine ⟨hentries, fun fuel hfuel ↦ ?_⟩
    have hbounded : entries pageSize.toInt32 ≠ some 0 := by
      rw [hentries]
      exact fun hzero ↦ hsize (Option.some.inj hzero)
    have hfuel' : (sortedKeys (withoutForeign ledger client.mspID)).length < fuel := by
      rw [withoutForeign, sortedKeys_restrict]
      exact (List.length_filter_le _ _).trans_lt hfuel
    rw [walkStudents_eq hscan hwell hmanager now hbounded hfuel,
      walkStudents_eq hscan hwell' hmanager now hbounded hfuel', visibleStudents, visibleStudents,
      scannedKeys_withoutForeign, listedRecords_withoutForeign hmsp]

/-- With pages of one key the first page of the first school's manager is empty, and without the
second school's student it would hold the student of the first. The bookmark that the second
school's manager gets is the ID of the first school's student. -/
theorem queryAllStudents_bothEnrolled :
    Reachable fabricStub bothEnrolled ∧ IsManager school1Manager ∧ IsManager school2Manager ∧
      (queryAllStudents 1 "").result
        (Context.answer ⟨fabricStub, school1Manager, noon⟩ bothEnrolled) = .ok ⟨[], "s1"⟩ ∧
      (queryAllStudents 1 "").result (Context.answer ⟨fabricStub, school1Manager, noon⟩
        (withoutForeign bothEnrolled "School1MSP")) = .ok ⟨[ada], ""⟩ ∧
      (queryAllStudents 1 "").result
        (Context.answer ⟨fabricStub, school2Manager, noon⟩ bothEnrolled) = .ok ⟨[carol], "s1"⟩ := by
  have hscan := fabricStub_scansPages 100000
  have hwell := reachable_bothEnrolled.wellFormed
  have hwell' : WellFormed (withoutForeign bothEnrolled "School1MSP") := hwell.restrict _
  have hsize : fabricEntries (Int64.toInt32 1) = some 1 := by decide
  have hforeign : HoldsForeign bothEnrolled "School1MSP" "s0" :=
    ⟨carol, holdsStudent_carol, by decide⟩
  have hown : ¬ HoldsForeign bothEnrolled "School1MSP" "s1" := by
    rintro ⟨student, hholds, hschool⟩
    cases Option.some.inj (holdsStudent_ada.recordAt_eq.symm.trans hholds.recordAt_eq)
    exact hschool rfl
  have hkept : scannedKeys (withoutForeign bothEnrolled "School1MSP") "" = ["s1"] := by
    rw [scannedKeys_withoutForeign, scannedKeys_bothEnrolled]
    simp [hforeign, hown]
  have hshown : listedRecords (withoutForeign bothEnrolled "School1MSP") "School1MSP" ["s1"] =
      [ada] := by
    rw [listedRecords, List.filterMap_cons, recordAt_withoutForeign hown,
      holdsStudent_ada.recordAt_eq]
    rfl
  refine ⟨reachable_bothEnrolled, isManager_school1Manager, isManager_school2Manager, ?_, ?_, ?_⟩
  · rw [queryAllStudents_eq hscan hwell isManager_school1Manager, hsize, scannedKeys_bothEnrolled]
    change Except.ok (⟨listedRecords bothEnrolled "School1MSP" ["s0"], "s1"⟩ :
      PaginationQueryResult) = _
    rw [listedRecords_singleton holdsStudent_carol, if_neg (by decide)]
  · rw [queryAllStudents_eq hscan hwell' isManager_school1Manager, hsize, hkept]
    change Except.ok (⟨listedRecords (withoutForeign bothEnrolled "School1MSP") "School1MSP" ["s1"],
      ""⟩ : PaginationQueryResult) = _
    rw [hshown]
  · rw [queryAllStudents_eq hscan hwell isManager_school2Manager, hsize, scannedKeys_bothEnrolled]
    change Except.ok (⟨listedRecords bothEnrolled "School2MSP" ["s0"], "s1"⟩ :
      PaginationQueryResult) = _
    rw [listedRecords_singleton holdsStudent_carol, if_pos (by decide)]

theorem queryAllStudents_withoutForeign_bothEnrolled :
    (queryAllStudents 2 "").result
        (Context.answer ⟨fabricStub, school1Manager, noon⟩
          (withoutForeign bothEnrolled "School1MSP")) =
      (queryAllStudents 2 "").result
        (Context.answer ⟨fabricStub, school1Manager, noon⟩ bothEnrolled) := by
  refine (queryAllStudents_withoutForeign (fabricStub_scansPages 100000) reachable_bothEnrolled
    (by decide) isManager_school1Manager noon (by decide) "").2.1.mpr ?_
  rintro size hsize
  obtain rfl := Option.some.inj ((by decide : fabricEntries (Int64.toInt32 2) = some 2).symm.trans
    hsize)
  exact Or.inl (by rw [scannedKeys_bothEnrolled]; decide)

end StudentStatus.Chaincode
