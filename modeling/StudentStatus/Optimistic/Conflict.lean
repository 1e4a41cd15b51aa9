import StudentStatus.Optimistic.Commit

/-!
# Conflicts

When a pending transaction is still valid. The version of a key changes exactly when the key is
written (`Chain.version_append_eq_iff`), so a transaction is current exactly when no write set that
was committed since its snapshot touches a key that it read (`Reachable.current_iff`).

`Orders` is a part of a run by the transactions that are ordered in it, in their order, with any
endorsements in between. Which of them are committed depends on that order only: they are the
`survivors` of the block (`Orders.eq_survivors`). Where touching is transitive, the survivors of a
block that was current at the start are the transactions that no earlier one touches
(`Reachable.survivors_eq_untouched`).
-/

set_option autoImplicit false
set_option relaxedAutoImplicit false

namespace StudentStatus.Optimistic

variable {K V T : Type} [DecidableEq K]

/-- A key keeps its version exactly while it is not written. -/
theorem Chain.version_append_eq_iff (newer older : Chain K V) (key : K) :
    Chain.version (newer ++ older) key = older.version key ↔
      ∀ writes ∈ newer, key ∉ writes.map Prod.fst := by
  induction newer with
  | nil => simp
  | cons writes newer ih =>
    rw [List.cons_append, Chain.version_cons, List.forall_mem_cons, ← ih, ← written_isSome_iff]
    split_ifs with hwritten
    · refine iff_of_false (fun heq ↦ ?_) fun h ↦ h.1 hwritten
      -- the write would have a height that the older chain does not reach
      have hlt := Chain.version_lt_length heq.symm
      rw [List.length_append] at hlt
      omega
    · exact (and_iff_right hwritten).symm

/-- A write set writes a key that the transaction read. -/
def Touches (writes : List (K × V)) (endorsed : Endorsed K V T) : Prop :=
  ∃ read ∈ endorsed.readVersions, read.1 ∈ writes.map Prod.fst

instance (writes : List (K × V)) (endorsed : Endorsed K V T) :
    Decidable (Touches writes endorsed) :=
  inferInstanceAs (Decidable (∃ read ∈ _, _))

/-- Every version that the transaction read is the version of the key in the chain. -/
def CurrentOn (chain : Chain K V) (endorsed : Endorsed K V T) : Prop :=
  ∀ read ∈ endorsed.readVersions, chain.version read.1 = read.2

instance (chain : Chain K V) (endorsed : Endorsed K V T) : Decidable (CurrentOn chain endorsed) :=
  inferInstanceAs (Decidable (∀ read ∈ _, _))

theorem Network.current_iff {network : Network K V T} {endorsed : Endorsed K V T} :
    network.Current endorsed ↔ CurrentOn network.chain endorsed := Iff.rfl

/-- A transaction is current as long as nothing that it read is written. -/
theorem currentOn_endorsedOn_iff (tx : T) (newer snapshot : Chain K V)
    (footprint : Footprint K V) :
    CurrentOn (newer ++ snapshot) (endorsedOn tx snapshot footprint) ↔
      ∀ writes ∈ newer, ¬ Touches writes (endorsedOn tx snapshot footprint) := by
  have hreads : CurrentOn (newer ++ snapshot) (endorsedOn tx snapshot footprint) ↔
      ∀ key ∈ footprint.reads, ∀ writes ∈ newer, key ∉ writes.map Prod.fst := by
    simp only [CurrentOn, endorsedOn, List.forall_mem_map, Chain.version_append_eq_iff]
  have htouches (writes : List (K × V)) : Touches writes (endorsedOn tx snapshot footprint) ↔
      ∃ key ∈ footprint.reads, key ∈ writes.map Prod.fst := by
    simp [Touches, endorsedOn]
  simp only [hreads, htouches, not_exists, not_and]
  exact ⟨fun h writes hwrites key hkey ↦ h key hkey writes hwrites,
    fun h key hkey writes hwrites ↦ h writes hwrites key hkey⟩

/-! ### Blocks -/

/-- The transactions of a block that are committed when they are ordered one after the other. -/
def survivors : Chain K V → List (Endorsed K V T) → List (Endorsed K V T)
  | _, [] => []
  | chain, endorsed :: block =>
    if CurrentOn chain endorsed then endorsed :: survivors (endorsed.writes :: chain) block
    else survivors chain block

theorem survivors_singleton (chain : Chain K V) (endorsed : Endorsed K V T) :
    survivors chain [endorsed] = if CurrentOn chain endorsed then [endorsed] else [] := rfl

/-- The chain after some transactions are committed, earliest first. -/
def commitAll (chain : Chain K V) (block : List (Endorsed K V T)) : Chain K V :=
  (block.map Endorsed.writes).reverse ++ chain

omit [DecidableEq K] in
theorem commitAll_cons (chain : Chain K V) (endorsed : Endorsed K V T)
    (block : List (Endorsed K V T)) :
    commitAll chain (endorsed :: block) = commitAll (endorsed.writes :: chain) block := by
  simp [commitAll]

omit [DecidableEq K] in
theorem commitAll_append_singleton (chain : Chain K V) (block : List (Endorsed K V T))
    (endorsed : Endorsed K V T) :
    commitAll chain (block ++ [endorsed]) = endorsed.writes :: commitAll chain block := by
  simp [commitAll]

/-- The history of a key after some commits: what they wrote to it, on top of what was there. -/
theorem history_commitAll (chain : Chain K V) {block : List (Endorsed K V T)}
    (hsingle : ∀ endorsed ∈ block, ∃ write, endorsed.writes = [write]) (key : K) :
    (commitAll chain block).history key =
      (((block.flatMap Endorsed.writes).filter fun write ↦ write.1 = key).map Prod.snd).reverse ++
        chain.history key := by
  induction block generalizing chain with
  | nil => rfl
  | cons endorsed block ih =>
    obtain ⟨write, hwrite⟩ := hsingle endorsed List.mem_cons_self
    rw [commitAll_cons, ih _ fun other hother ↦ hsingle other (List.mem_cons_of_mem _ hother),
      hwrite, Chain.history_cons_singleton, List.flatMap_cons, hwrite]
    by_cases hkey : write.1 = key <;> simp [hkey]

theorem survivors_append (chain : Chain K V) (block rest : List (Endorsed K V T)) :
    survivors chain (block ++ rest) =
      survivors chain block ++ survivors (commitAll chain (survivors chain block)) rest := by
  induction block generalizing chain with
  | nil => rfl
  | cons endorsed block ih =>
    rw [List.cons_append, survivors, survivors]
    split_ifs
    · rw [ih, List.cons_append, commitAll_cons]
    · exact ih chain

theorem survivors_sublist (chain : Chain K V) (block : List (Endorsed K V T)) :
    (survivors chain block).Sublist block := by
  induction block generalizing chain with
  | nil => exact List.Sublist.refl _
  | cons endorsed block ih =>
    rw [survivors]
    split_ifs
    · exact (ih _).cons_cons _
    · exact (ih _).cons _

variable (exec : T → Chain K V → Option (Footprint K V))

/-- The pending transactions of the block are ordered one after the other, each committed or
invalidated, with any endorsements in between. -/
inductive Orders : Network K V T → List (Endorsed K V T) → Network K V T → Prop
  | nil (network : Network K V T) : Orders network [] network
  | endorse {network next : Network K V T} {block : List (Endorsed K V T)} {snapshot : Chain K V}
      {footprint : Footprint K V} (tx : T) (hsnapshot : snapshot <:+ network.chain)
      (hexec : exec tx snapshot = some footprint)
      (hrest : Orders
        { network with pending := endorsedOn tx snapshot footprint :: network.pending }
          block next) : Orders network block next
  | commit {network next : Network K V T} {before after block : List (Endorsed K V T)}
      {endorsed : Endorsed K V T} (hpending : network.pending = before ++ endorsed :: after)
      (hcurrent : network.Current endorsed)
      (hrest : Orders ⟨endorsed.writes :: network.chain, before ++ after,
        endorsed :: network.committed⟩ block next) : Orders network (endorsed :: block) next
  | invalidate {network next : Network K V T} {before after block : List (Endorsed K V T)}
      {endorsed : Endorsed K V T} (hpending : network.pending = before ++ endorsed :: after)
      (hstale : ¬ network.Current endorsed)
      (hrest : Orders { network with pending := before ++ after } block next) :
      Orders network (endorsed :: block) next

variable {exec}

namespace Orders

variable {network next : Network K V T} {block : List (Endorsed K V T)}

theorem reachable (h : Orders exec network block next) (hnetwork : Reachable exec network) :
    Reachable exec next := by
  induction h with
  | nil network => exact hnetwork
  | endorse tx hsnapshot hexec hrest ih => exact ih (hnetwork.step (.endorse tx hsnapshot hexec))
  | commit hpending hcurrent hrest ih => exact ih (hnetwork.step (.commit _ hpending hcurrent))
  | invalidate hpending hstale hrest ih => exact ih (hnetwork.step (.invalidate _ hpending hstale))

/-- The survivors of the block are what is committed. -/
theorem eq_survivors (h : Orders exec network block next) :
    next.committed = (survivors network.chain block).reverse ++ network.committed ∧
      next.chain = commitAll network.chain (survivors network.chain block) := by
  induction h with
  | nil network => exact ⟨rfl, rfl⟩
  | endorse tx hsnapshot hexec hrest ih => exact ih
  | commit hpending hcurrent hrest ih =>
    rw [survivors, if_pos (Network.current_iff.mp hcurrent), List.reverse_cons, List.append_assoc,
      commitAll_cons]
    exact ih
  | invalidate hpending hstale hrest ih =>
    rw [survivors, if_neg (Network.current_iff.not.mp hstale)]
    exact ih

end Orders

namespace Reachable

variable {network : Network K V T}

/-- The chain holds the write sets of the committed transactions. -/
theorem chain_eq (h : Reachable exec network) :
    network.chain = network.committed.map Endorsed.writes := by
  induction h with
  | initial => rfl
  | step hreachable hstep ih =>
    cases hstep with
    | endorse tx hsnapshot hexec => exact ih
    | commit endorsed hpending hcurrent => exact congrArg (endorsed.writes :: ·) ih
    | invalidate endorsed hpending hstale => exact ih

/-- Every earlier part of the committed transactions is a run, of their write sets. -/
theorem replay_earlier (hreads : ReadsDetermine exec) (h : Reachable exec network)
    {later earlier : List (Endorsed K V T)} (hsplit : network.committed = later ++ earlier) :
    replay exec (earlier.map Endorsed.tx) = some (earlier.map Endorsed.writes) := by
  induction h generalizing later with
  | initial =>
    obtain ⟨-, rfl⟩ := List.append_eq_nil_iff.mp hsplit.symm
    rfl
  | @step before after hreachable hstep ih =>
    cases later with
    | nil =>
      have hnext := hreachable.step hstep
      rw [List.nil_append] at hsplit
      rw [← hsplit, ← hnext.chain_eq]
      exact hnext.replay_committed hreads
    | cons newest later =>
      cases hstep with
      | endorse tx hsnapshot hexec => exact ih hsplit
      | commit endorsed hpending hcurrent => exact ih (List.cons.inj hsplit).2
      | invalidate endorsed hpending hstale => exact ih hsplit

/-- A pending transaction is current exactly when nothing committed since its snapshot touches what
it read. -/
theorem current_iff (h : Reachable exec network) {endorsed : Endorsed K V T}
    (hmem : endorsed ∈ network.pending) :
    ∃ (since earlier : List (Endorsed K V T)) (footprint : Footprint K V),
      network.committed = since ++ earlier ∧
      exec endorsed.tx (earlier.map Endorsed.writes) = some footprint ∧
      endorsed = endorsedOn endorsed.tx (earlier.map Endorsed.writes) footprint ∧
      (network.Current endorsed ↔ ∀ committed ∈ since, ¬ Touches committed.writes endorsed) := by
  obtain ⟨snapshot, footprint, ⟨newer, hnewer⟩, hexec, heq⟩ := h.pending_endorsed hmem
  rw [h.chain_eq] at hnewer
  obtain ⟨since, earlier, hsplit, rfl, rfl⟩ := List.append_eq_map_iff.mp hnewer
  refine ⟨since, earlier, footprint, hsplit, hexec, heq, ?_⟩
  rw [Network.current_iff, h.chain_eq, hsplit, List.map_append, heq, currentOn_endorsedOn_iff,
    List.forall_mem_map]

/-- What more commits do to a pending transaction. -/
theorem currentOn_commitAll_iff (h : Reachable exec network) {endorsed : Endorsed K V T}
    (hmem : endorsed ∈ network.pending) (block : List (Endorsed K V T)) :
    CurrentOn (commitAll network.chain block) endorsed ↔
      network.Current endorsed ∧ ∀ committed ∈ block, ¬ Touches committed.writes endorsed := by
  obtain ⟨snapshot, footprint, ⟨newer, hnewer⟩, -, heq⟩ := h.pending_endorsed hmem
  rw [Network.current_iff, commitAll, ← hnewer, ← List.append_assoc, heq,
    currentOn_endorsedOn_iff, currentOn_endorsedOn_iff, List.forall_mem_append, and_comm]
  simp

end Reachable

/-! ### Which transactions of a block survive -/

/-- The transactions of a block that no earlier one touches, after the transactions of `before`. -/
def untouched (before : List (Endorsed K V T)) : List (Endorsed K V T) → List (Endorsed K V T)
  | [] => []
  | endorsed :: block =>
    if ∀ earlier ∈ before, ¬ Touches earlier.writes endorsed then
      endorsed :: untouched (endorsed :: before) block
    else untouched (endorsed :: before) block

/-- Transactions that do not touch each other are all untouched. -/
theorem untouched_eq_self {before block : List (Endorsed K V T)}
    (h : ∀ first ∈ before ++ block, ∀ second ∈ block, ¬ Touches first.writes second) :
    untouched before block = block := by
  induction block generalizing before with
  | nil => rfl
  | cons endorsed block ih =>
    have hbefore : ∀ earlier ∈ before, ¬ Touches earlier.writes endorsed := fun earlier hearlier ↦
      h earlier (List.mem_append_left _ hearlier) endorsed List.mem_cons_self
    rw [untouched, if_pos hbefore, ih]
    intro first hfirst second hsecond
    refine h first ?_ second (List.mem_cons_of_mem _ hsecond)
    rw [List.cons_append, List.mem_cons, List.mem_append] at hfirst
    rw [List.mem_append, List.mem_cons]
    tauto

/-- A transaction that touches one that touches a third touches the third itself. -/
def TouchesTrans (block : List (Endorsed K V T)) : Prop :=
  ∀ first ∈ block, ∀ second ∈ block, ∀ third ∈ block, Touches first.writes second →
    Touches second.writes third → Touches first.writes third

namespace Reachable

variable {network : Network K V T} (h : Reachable exec network)

include h

/-- A transaction of a block that does not survive is touched by a survivor before it. -/
theorem mem_survivors_or {block : List (Endorsed K V T)}
    (hblock : ∀ endorsed ∈ block, endorsed ∈ network.pending ∧ network.Current endorsed)
    {endorsed : Endorsed K V T} (hmem : endorsed ∈ block) :
    endorsed ∈ survivors network.chain block ∨
      ∃ survivor ∈ survivors network.chain block, Touches survivor.writes endorsed := by
  obtain ⟨before, after, rfl⟩ := List.append_of_mem hmem
  obtain ⟨hpending, hcurrent⟩ := hblock endorsed hmem
  rw [survivors_append, survivors]
  by_cases hon : CurrentOn (commitAll network.chain (survivors network.chain before)) endorsed
  · rw [if_pos hon]
    exact Or.inl (List.mem_append_right _ List.mem_cons_self)
  · rw [h.currentOn_commitAll_iff hpending, not_and] at hon
    obtain ⟨survivor, hsurvivor, htouches⟩ : ∃ survivor ∈ survivors network.chain before,
        Touches survivor.writes endorsed := by
      simpa using hon hcurrent
    exact Or.inr ⟨survivor, List.mem_append_left _ hsurvivor, htouches⟩

/-- After the transactions of `before`, the survivors of a block are those that nothing earlier
touches, survivor or not. -/
theorem survivors_commitAll_eq {before block : List (Endorsed K V T)}
    (hblock : ∀ endorsed ∈ before ++ block, endorsed ∈ network.pending ∧ network.Current endorsed)
    (htrans : TouchesTrans (before ++ block)) :
    survivors (commitAll network.chain (survivors network.chain before)) block =
      untouched before.reverse block := by
  induction block generalizing before with
  | nil => rfl
  | cons endorsed block ih =>
    have hmem : endorsed ∈ before ++ endorsed :: block :=
      List.mem_append_right _ List.mem_cons_self
    obtain ⟨hpending, hcurrent⟩ := hblock endorsed hmem
    have hsurvives : CurrentOn (commitAll network.chain (survivors network.chain before)) endorsed ↔
        ∀ earlier ∈ before.reverse, ¬ Touches earlier.writes endorsed := by
      rw [h.currentOn_commitAll_iff hpending, and_iff_right hcurrent]
      refine ⟨fun hsurvivors earlier hearlier htouches ↦ ?_, fun hbefore survivor hsurvivor ↦
        hbefore survivor (List.mem_reverse.mpr ((survivors_sublist _ _).subset hsurvivor))⟩
      rw [List.mem_reverse] at hearlier
      have hbefore : ∀ other ∈ before, other ∈ network.pending ∧ network.Current other :=
        fun other hother ↦ hblock other (List.mem_append_left _ hother)
      rcases h.mem_survivors_or hbefore hearlier with hsurvivor | ⟨survivor, hsurvivor, hfirst⟩
      · exact hsurvivors earlier hsurvivor htouches
      · -- what touches the earlier transaction touches this one too
        have hsubset := (survivors_sublist network.chain before).subset hsurvivor
        exact hsurvivors survivor hsurvivor (htrans survivor (List.mem_append_left _ hsubset)
          earlier (List.mem_append_left _ hearlier) endorsed hmem hfirst htouches)
    have hnext := @ih (before ++ [endorsed]) (by simpa using hblock) (by simpa using htrans)
    rw [survivors_append, survivors_singleton, List.reverse_append, List.reverse_singleton,
      List.singleton_append] at hnext
    rw [survivors, untouched]
    by_cases hon : CurrentOn (commitAll network.chain (survivors network.chain before)) endorsed
    · rw [if_pos hon, commitAll_append_singleton] at hnext
      rw [if_pos hon, if_pos (hsurvives.mp hon), hnext]
    · rw [if_neg hon, List.append_nil] at hnext
      rw [if_neg hon, if_neg (hsurvives.not.mp hon), hnext]

/-- The survivors of a block that is current are the transactions that no earlier one touches. -/
theorem survivors_eq_untouched {block : List (Endorsed K V T)}
    (hblock : ∀ endorsed ∈ block, endorsed ∈ network.pending ∧ network.Current endorsed)
    (htrans : TouchesTrans block) : survivors network.chain block = untouched [] block :=
  @survivors_commitAll_eq _ _ _ _ _ _ h [] block hblock htrans

end Reachable

end StudentStatus.Optimistic
