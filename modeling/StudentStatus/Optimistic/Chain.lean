import Mathlib.Algebra.BigOperators.Group.Finset.Piecewise
import Mathlib.Data.List.Dedup
import Mathlib.Data.List.Infix

/-!
# Chains of write sets

A versioned key-value store kept as the chain of the write sets that were committed, latest first.
The history of a key is what the chain wrote under it (`Chain.history`), its value is the latest
entry (`Chain.value`), its version is the height of the commit that wrote that entry
(`Chain.version`). A version determines the value: two chains, one extending the other, that give a
key the same version give it the same history (`Chain.history_eq_of_version_eq`).

A transaction reads the chain and yields a footprint, the keys it read and the writes it wants, or
fails. `replay` runs transactions one at a time from the empty chain, and `replay_induction` is the
invariant rule for its runs.
-/

set_option autoImplicit false
set_option relaxedAutoImplicit false

namespace StudentStatus.Optimistic

/-- The committed write sets, latest first. -/
abbrev Chain (K V : Type) := List (List (K × V))

section Chain

variable {K V : Type} [DecidableEq K]

/-- The value that a write set leaves under a key: its last write to that key. -/
def written (writes : List (K × V)) (key : K) : Option V :=
  (writes.reverse.find? fun write ↦ write.1 = key).map Prod.snd

@[simp] theorem written_singleton (write : K × V) (key : K) :
    written [write] key = if write.1 = key then some write.2 else none := by
  by_cases h : write.1 = key <;> simp [written, h]

namespace Chain

/-- Every value committed under a key, latest first. -/
def history : Chain K V → K → List V
  | [], _ => []
  | writes :: older, key => (written writes key).toList ++ history older key

/-- The value stored under a key. -/
def value (chain : Chain K V) (key : K) : Option V := (chain.history key).head?

/-- The version of a key: the number of commits before the one that wrote its value. -/
def version : Chain K V → K → Option ℕ
  | [], _ => none
  | writes :: older, key =>
    if (written writes key).isSome then some older.length else version older key

/-- The keys that have a value, each once. -/
def keys (chain : Chain K V) : List K := (chain.flatMap fun writes ↦ writes.map Prod.fst).dedup

theorem history_cons (writes : List (K × V)) (older : Chain K V) (key : K) :
    Chain.history (writes :: older) key = (written writes key).toList ++ older.history key := rfl

@[simp] theorem value_nil (key : K) : Chain.value ([] : Chain K V) key = none := rfl

theorem version_cons (writes : List (K × V)) (older : Chain K V) (key : K) :
    Chain.version (writes :: older) key =
      if (written writes key).isSome then some older.length else older.version key := rfl

theorem value_cons (writes : List (K × V)) (older : Chain K V) (key : K) :
    Chain.value (writes :: older) key = (written writes key).or (older.value key) := by
  unfold value
  rw [history_cons]
  cases written writes key <;> rfl

theorem history_cons_singleton (write : K × V) (older : Chain K V) (key : K) :
    Chain.history ([write] :: older) key =
      if write.1 = key then write.2 :: older.history key else older.history key := by
  rw [history_cons, written_singleton]
  split_ifs <;> rfl

theorem value_cons_singleton (write : K × V) (older : Chain K V) (key : K) :
    Chain.value ([write] :: older) key =
      if write.1 = key then some write.2 else older.value key := by
  rw [value_cons, written_singleton]
  split_ifs <;> rfl

theorem mem_history_of_value {chain : Chain K V} {key : K} {stored : V}
    (h : chain.value key = some stored) : stored ∈ chain.history key :=
  List.mem_of_mem_head? h

theorem value_isSome_iff {chain : Chain K V} {key : K} :
    (chain.value key).isSome ↔ chain.history key ≠ [] := by
  unfold value
  cases chain.history key <;> simp

theorem written_isSome_iff {writes : List (K × V)} {key : K} :
    (written writes key).isSome ↔ key ∈ writes.map Prod.fst := by
  rw [written, Option.isSome_map, List.find?_isSome, List.mem_map]
  simp only [List.mem_reverse, decide_eq_true_eq]

theorem mem_keys_iff {chain : Chain K V} {key : K} :
    key ∈ chain.keys ↔ (chain.value key).isSome := by
  unfold keys
  rw [List.mem_dedup]
  induction chain with
  | nil => simp
  | cons writes older ih =>
    rw [List.flatMap_cons, List.mem_append, ih, ← written_isSome_iff, value_cons]
    cases written writes key <;> simp

theorem nodup_keys (chain : Chain K V) : chain.keys.Nodup := List.nodup_dedup _

/-- The chain without the writes to the keys that are not kept. -/
def restrict (kept : K → Bool) (chain : Chain K V) : Chain K V :=
  chain.map fun writes ↦ writes.filter fun write ↦ kept write.1

theorem written_filter (kept : K → Bool) (writes : List (K × V)) (key : K) :
    written (writes.filter fun write ↦ kept write.1) key =
      if kept key then written writes key else none := by
  unfold written
  rw [← List.filter_reverse, List.find?_filter]
  cases hkept : kept key with
  | true =>
    have hsame : (fun write : K × V ↦ decide (kept write.1 ∧ decide (write.1 = key))) =
        fun write ↦ decide (write.1 = key) := by
      funext write
      by_cases heq : write.1 = key <;> simp [heq, hkept]
    rw [hsame, if_pos rfl]
  | false =>
    rw [if_neg Bool.false_ne_true, Option.map_eq_none_iff, List.find?_eq_none]
    intro write _ hfound
    obtain ⟨hwrite, heq⟩ := of_decide_eq_true hfound
    rw [of_decide_eq_true heq, hkept] at hwrite
    exact Bool.false_ne_true hwrite

/-- The restricted chain has the histories of the kept keys and no others. -/
theorem history_restrict (kept : K → Bool) (chain : Chain K V) (key : K) :
    (restrict kept chain).history key = if kept key then chain.history key else [] := by
  induction chain with
  | nil => simp [restrict, history]
  | cons writes older ih =>
    change Chain.history ((writes.filter fun write ↦ kept write.1) :: restrict kept older) key = _
    rw [history_cons, history_cons, written_filter, ih]
    split_ifs <;> rfl

theorem value_restrict (kept : K → Bool) (chain : Chain K V) (key : K) :
    (restrict kept chain).value key = if kept key then chain.value key else none := by
  rw [value, history_restrict]
  split_ifs <;> rfl

/-- A longer chain keeps the history of every key at the end of the longer history. -/
theorem history_suffix {older chain : Chain K V} (h : older <:+ chain) (key : K) :
    older.history key <:+ chain.history key := by
  obtain ⟨newer, rfl⟩ := h
  induction newer with
  | nil => exact List.suffix_rfl
  | cons writes newer ih => exact ih.trans (List.suffix_append _ _)

/-- How many entries of a kind the histories of some keys hold, after one more write: one more if
the write is of that kind and to one of the keys. -/
theorem sum_countP_history_cons_singleton (keys : Finset K) (p : V → Bool) (write : K × V)
    (older : Chain K V) :
    ∑ key ∈ keys, (Chain.history ([write] :: older) key).countP p =
      ∑ key ∈ keys, (older.history key).countP p +
        if write.1 ∈ keys ∧ p write.2 then 1 else 0 := by
  have hentry (key : K) : (Chain.history ([write] :: older) key).countP p =
      (older.history key).countP p + if write.1 = key then (if p write.2 then 1 else 0) else 0 := by
    rw [history_cons_singleton]
    split_ifs with hkey hp
    · rw [List.countP_cons_of_pos hp]
    · rw [List.countP_cons_of_neg hp, Nat.add_zero]
    · rfl
  rw [Finset.sum_congr rfl fun key _ ↦ hentry key, Finset.sum_add_distrib, Finset.sum_ite_eq]
  by_cases hmem : write.1 ∈ keys <;> simp [hmem]

/-- A key with a value keeps some value in every longer chain. -/
theorem value_isSome_of_suffix {older chain : Chain K V} (h : older <:+ chain) {key : K}
    (hsome : (older.value key).isSome) : (chain.value key).isSome := by
  rw [value_isSome_iff] at hsome ⊢
  intro hnil
  have hsuffix := history_suffix h key
  rw [hnil, List.suffix_nil] at hsuffix
  exact hsome hsuffix

theorem version_lt_length {chain : Chain K V} {key : K} {height : ℕ}
    (h : chain.version key = some height) : height < chain.length := by
  induction chain with
  | nil => cases h
  | cons writes older ih =>
    rw [version_cons] at h
    split_ifs at h with hwritten
    · cases h
      exact Nat.lt_succ_self _
    · exact (ih h).trans (Nat.lt_succ_self _)

/-- The keys that have a version are those that have a value. -/
theorem isSome_version (chain : Chain K V) (key : K) :
    (chain.version key).isSome = (chain.value key).isSome := by
  induction chain with
  | nil => rfl
  | cons writes older ih =>
    rw [version_cons, value_cons]
    cases written writes key with
    | none => exact ih
    | some written => rfl

/-- A key that has the version of an earlier chain was not written since. -/
theorem history_eq_of_version_eq {older chain : Chain K V} (h : older <:+ chain) {key : K}
    (hversion : chain.version key = older.version key) :
    chain.history key = older.history key := by
  obtain ⟨newer, rfl⟩ := h
  induction newer with
  | nil => rfl
  | cons writes newer ih =>
    rw [List.cons_append, version_cons] at hversion
    split_ifs at hversion with hwritten
    · -- the write set would be newer than the version it is said to have
      have hlt := version_lt_length hversion.symm
      rw [List.length_append] at hlt
      omega
    · rw [List.cons_append, history_cons, Option.not_isSome_iff_eq_none.mp hwritten]
      exact ih hversion

theorem value_eq_of_version_eq {older chain : Chain K V} (h : older <:+ chain) {key : K}
    (hversion : chain.version key = older.version key) : chain.value key = older.value key :=
  congrArg List.head? (history_eq_of_version_eq h hversion)

end Chain

end Chain

/-! ### Transactions and their sequential runs -/

/-- What a successful transaction read and what it wants written. -/
structure Footprint (K V : Type) where
  reads : List K
  writes : List (K × V)
  deriving DecidableEq

section Replay

variable {K V T : Type} (exec : T → Chain K V → Option (Footprint K V))

/-- Run the transactions, given latest first, one at a time from the empty chain; `none` when one
of them fails. -/
def replay : List T → Option (Chain K V)
  | [] => some []
  | tx :: earlier => do
    let chain ← replay earlier
    let footprint ← exec tx chain
    return footprint.writes :: chain

variable {exec}

theorem replay_cons_eq_some {tx : T} {earlier : List T} {chain : Chain K V} :
    replay exec (tx :: earlier) = some chain ↔ ∃ older footprint, replay exec earlier = some older ∧
      exec tx older = some footprint ∧ chain = footprint.writes :: older := by
  simp only [replay, Option.bind_eq_bind, Option.bind_eq_some_iff, Option.pure_def,
    Option.some.injEq]
  constructor
  · rintro ⟨older, holder, footprint, hexec, rfl⟩
    exact ⟨older, footprint, holder, hexec, rfl⟩
  · rintro ⟨older, footprint, holder, hexec, rfl⟩
    exact ⟨older, holder, footprint, hexec, rfl⟩

/-- The invariant rule for sequential runs: what holds of the empty run and is kept by one more
transaction holds of every run. -/
theorem replay_induction {motive : List T → Chain K V → Prop} (hnil : motive [] [])
    (hcons : ∀ tx earlier older footprint, replay exec earlier = some older →
      motive earlier older → exec tx older = some footprint →
      motive (tx :: earlier) (footprint.writes :: older))
    {txs : List T} {chain : Chain K V} (h : replay exec txs = some chain) : motive txs chain := by
  induction txs generalizing chain with
  | nil =>
    cases h
    exact hnil
  | cons tx earlier ih =>
    obtain ⟨older, footprint, holder, hexec, rfl⟩ := replay_cons_eq_some.mp h
    exact hcons tx earlier older footprint holder (ih holder) hexec

/-- A run of transactions that carry more than what is executed. -/
theorem replay_map {U : Type} (carried : U → T) (txs : List U) :
    replay (fun tx ↦ exec (carried tx)) txs = replay exec (txs.map carried) := by
  induction txs with
  | nil => rfl
  | cons tx earlier ih => rw [List.map_cons, replay, replay, ih]

/-- An earlier part of a run reaches an earlier chain. -/
theorem replay_of_suffix {earlier txs : List T} (hsuffix : earlier <:+ txs) {chain : Chain K V}
    (h : replay exec txs = some chain) :
    ∃ older, older <:+ chain ∧ replay exec earlier = some older := by
  obtain ⟨later, rfl⟩ := hsuffix
  induction later generalizing chain with
  | nil => exact ⟨chain, List.suffix_rfl, h⟩
  | cons tx later ih =>
    obtain ⟨older, footprint, holder, -, rfl⟩ := replay_cons_eq_some.mp h
    obtain ⟨oldest, holdest, hreplay⟩ := ih holder
    exact ⟨oldest, holdest.trans (List.suffix_cons _ _), hreplay⟩

/-- An earlier chain is reached by an earlier part of the run. -/
theorem exists_replay_of_suffix {older chain : Chain K V} (hsuffix : older <:+ chain)
    {txs : List T} (h : replay exec txs = some chain) :
    ∃ earlier, earlier <:+ txs ∧ replay exec earlier = some older := by
  induction txs generalizing chain with
  | nil =>
    cases h
    rw [List.suffix_nil.mp hsuffix]
    exact ⟨[], List.suffix_rfl, rfl⟩
  | cons tx earlier ih =>
    obtain ⟨before, footprint, hbefore, hexec, rfl⟩ := replay_cons_eq_some.mp h
    rcases List.suffix_cons_iff.mp hsuffix with rfl | hsuffix
    · exact ⟨tx :: earlier, List.suffix_rfl, h⟩
    · obtain ⟨oldest, holdest, hreplay⟩ := ih hsuffix hbefore
      exact ⟨oldest, holdest.trans (List.suffix_cons _ _), hreplay⟩

end Replay

section LastWriter

variable {K V T : Type} [DecidableEq K]

/-- The transaction that wrote the value of a key, where the write sets of the chain are those of
the transactions, both latest first. -/
def lastWriter : List T → Chain K V → K → Option T
  | tx :: earlier, writes :: older, key =>
    if (written writes key).isSome then some tx else lastWriter earlier older key
  | _, _, _ => none

theorem lastWriter_cons_singleton (tx : T) (earlier : List T) (write : K × V) (older : Chain K V)
    (key : K) : lastWriter (tx :: earlier) ([write] :: older) key =
      if write.1 = key then some tx else lastWriter earlier older key := by
  rw [lastWriter, written_singleton]
  by_cases h : write.1 = key <;> simp [h]

/-- In a run the keys that have a last writer are those that have a value. -/
theorem isSome_lastWriter {exec : T → Chain K V → Option (Footprint K V)} {txs : List T}
    {chain : Chain K V} (h : replay exec txs = some chain) (key : K) :
    (lastWriter txs chain key).isSome = (chain.value key).isSome := by
  refine replay_induction (motive := fun (txs : List T) (chain : Chain K V) ↦
    (lastWriter txs chain key).isSome = (chain.value key).isSome) rfl ?_ h
  intro tx earlier older footprint _ ih _
  rw [lastWriter, Chain.value_cons]
  cases written footprint.writes key with
  | none => exact ih
  | some text => rfl

end LastWriter

end StudentStatus.Optimistic
