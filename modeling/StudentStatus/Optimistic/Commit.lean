import StudentStatus.Optimistic.Chain

/-!
# Optimistic commit

Transactions are endorsed against any committed snapshot, which records the version of every key
they read and buffers their writes, and are committed later, in any order, when every recorded
version is still current. `Step` is one event of such a network and `Reachable` its states from the
empty chain.

The only property asked of the transactions is `ReadsDetermine`: a chain that gives the keys read
the same values gives the same footprint. Under it a transaction that is committed has, on the
chain it is committed to, exactly the footprint it was endorsed with (`Reachable.exec_of_current`),
and the network is serializable: replaying the committed transactions in commit order succeeds and
builds the same chain (`Reachable.replay_committed`). Conversely every sequential run is a run of
the network (`Reachable.of_replay`).
-/

set_option autoImplicit false
set_option relaxedAutoImplicit false

namespace StudentStatus.Optimistic

variable {K V T : Type} [DecidableEq K]

/-- A transaction that was executed on a snapshot: the keys read with their versions there, and
the buffered writes. -/
structure Endorsed (K V T : Type) where
  tx : T
  readVersions : List (K × Option ℕ)
  writes : List (K × V)

/-- The committed chain, the endorsed transactions not yet ordered, and the transactions committed
as valid, latest first. -/
structure Network (K V T : Type) where
  chain : Chain K V
  pending : List (Endorsed K V T)
  committed : List (Endorsed K V T)

namespace Network

/-- Nothing endorsed and nothing committed. -/
def initial : Network K V T := ⟨[], [], []⟩

omit [DecidableEq K] in
/-- A transaction that stays pending when another is ordered was pending before. -/
theorem mem_pending_of_mem_rest {network : Network K V T} {before after : List (Endorsed K V T)}
    {ordered endorsed : Endorsed K V T} (hpending : network.pending = before ++ ordered :: after)
    (hmem : endorsed ∈ before ++ after) : endorsed ∈ network.pending := by
  rw [hpending, List.mem_append, List.mem_cons]
  exact (List.mem_append.mp hmem).imp id Or.inr

/-- Every version that the transaction read is still the version of the key. -/
def Current (network : Network K V T) (endorsed : Endorsed K V T) : Prop :=
  ∀ read ∈ endorsed.readVersions, network.chain.version read.1 = read.2

instance (network : Network K V T) (endorsed : Endorsed K V T) :
    Decidable (network.Current endorsed) := inferInstanceAs (Decidable (∀ read ∈ _, _))

end Network

variable (exec : T → Chain K V → Option (Footprint K V))

/-- The record of a transaction endorsed on a snapshot with a given footprint. -/
def endorsedOn (tx : T) (snapshot : Chain K V) (footprint : Footprint K V) : Endorsed K V T :=
  ⟨tx, footprint.reads.map fun key ↦ (key, snapshot.version key), footprint.writes⟩

/-- One event of the network. The pending transactions are split around the one that is ordered,
so any of them may come next. -/
inductive Step : Network K V T → Network K V T → Prop
  | endorse {network : Network K V T} {snapshot : Chain K V} {footprint : Footprint K V} (tx : T)
      (hsnapshot : snapshot <:+ network.chain) (hexec : exec tx snapshot = some footprint) :
      Step network { network with pending := endorsedOn tx snapshot footprint :: network.pending }
  | commit {network : Network K V T} {before after : List (Endorsed K V T)}
      (endorsed : Endorsed K V T) (hpending : network.pending = before ++ endorsed :: after)
      (hcurrent : network.Current endorsed) :
      Step network
        ⟨endorsed.writes :: network.chain, before ++ after, endorsed :: network.committed⟩
  | invalidate {network : Network K V T} {before after : List (Endorsed K V T)}
      (endorsed : Endorsed K V T) (hpending : network.pending = before ++ endorsed :: after)
      (hstale : ¬ network.Current endorsed) :
      Step network { network with pending := before ++ after }

variable {exec} in
/-- The transaction endorsed last may be ordered next and be valid. -/
theorem Step.commit_head {network : Network K V T} {endorsed : Endorsed K V T}
    {rest : List (Endorsed K V T)} (hpending : network.pending = endorsed :: rest)
    (hcurrent : network.Current endorsed) :
    Step exec network
      ⟨endorsed.writes :: network.chain, rest, endorsed :: network.committed⟩ := by
  rw [← List.nil_append (endorsed :: rest)] at hpending
  exact .commit endorsed hpending hcurrent

variable {exec} in
/-- The transaction endorsed last may be ordered next and be stale. -/
theorem Step.invalidate_head {network : Network K V T} {endorsed : Endorsed K V T}
    {rest : List (Endorsed K V T)} (hpending : network.pending = endorsed :: rest)
    (hstale : ¬ network.Current endorsed) :
    Step exec network { network with pending := rest } := by
  rw [← List.nil_append (endorsed :: rest)] at hpending
  exact .invalidate endorsed hpending hstale

/-- The states of the network after any events. -/
inductive Reachable : Network K V T → Prop
  | initial : Reachable Network.initial
  | step {network next : Network K V T} (hreachable : Reachable network)
      (hstep : Step exec network next) : Reachable next

/-- The footprint of a transaction depends only on the values of the keys it reads. -/
def ReadsDetermine : Prop :=
  ∀ tx (chain other : Chain K V) footprint, exec tx chain = some footprint →
    (∀ key ∈ footprint.reads, other.value key = chain.value key) → exec tx other = some footprint

variable {exec}

namespace Reachable

/-- Every pending transaction was executed on some part of the chain. -/
theorem pending_endorsed {network : Network K V T} (h : Reachable exec network)
    {endorsed : Endorsed K V T} (hmem : endorsed ∈ network.pending) :
    ∃ (snapshot : Chain K V) (footprint : Footprint K V), snapshot <:+ network.chain ∧
      exec endorsed.tx snapshot = some footprint ∧
      endorsed = endorsedOn endorsed.tx snapshot footprint := by
  induction h generalizing endorsed with
  | initial => cases hmem
  | step hreachable hstep ih =>
    cases hstep with
    | endorse tx hsnapshot hexec =>
      rcases List.mem_cons.mp hmem with rfl | hmem
      · exact ⟨_, _, hsnapshot, hexec, rfl⟩
      · exact ih hmem
    | commit ordered hpending hcurrent =>
      have hbefore := Network.mem_pending_of_mem_rest hpending hmem
      obtain ⟨snapshot, footprint, hsuffix, hexec, heq⟩ := ih hbefore
      exact ⟨snapshot, footprint, hsuffix.trans (List.suffix_cons _ _), hexec, heq⟩
    | invalidate ordered hpending hstale => exact ih (Network.mem_pending_of_mem_rest hpending hmem)

/-- A pending transaction whose read versions are current would be executed now with the footprint
it was endorsed with. -/
theorem exec_of_current (hreads : ReadsDetermine exec) {network : Network K V T}
    (h : Reachable exec network) {endorsed : Endorsed K V T} (hmem : endorsed ∈ network.pending)
    (hcurrent : network.Current endorsed) :
    ∃ footprint, exec endorsed.tx network.chain = some footprint ∧
      footprint.writes = endorsed.writes ∧
      endorsed.readVersions =
        footprint.reads.map fun key ↦ (key, network.chain.version key) := by
  obtain ⟨snapshot, footprint, hsuffix, hexec, heq⟩ := h.pending_endorsed hmem
  have hversion : ∀ key ∈ footprint.reads,
      network.chain.version key = snapshot.version key := by
    intro key hkey
    refine hcurrent (key, snapshot.version key) ?_
    rw [heq]
    exact List.mem_map_of_mem hkey
  refine ⟨footprint, hreads _ _ _ _ hexec fun key hkey ↦ ?_, by rw [heq]; rfl, ?_⟩
  · exact Chain.value_eq_of_version_eq hsuffix (hversion key hkey)
  · rw [heq]
    exact List.map_congr_left fun key hkey ↦ by rw [hversion key hkey]

/-- Serializability: the committed transactions, run one at a time in commit order, all succeed
and build the committed chain. -/
theorem replay_committed (hreads : ReadsDetermine exec) {network : Network K V T}
    (h : Reachable exec network) :
    replay exec (network.committed.map Endorsed.tx) = some network.chain := by
  induction h with
  | initial => rfl
  | step hreachable hstep ih =>
    cases hstep with
    | endorse tx hsnapshot hexec => exact ih
    | commit ordered hpending hcurrent =>
      have hmem : ordered ∈ _ := hpending ▸ List.mem_append_right _ List.mem_cons_self
      obtain ⟨footprint, hexec, hwrites, -⟩ := hreachable.exec_of_current hreads hmem hcurrent
      rw [List.map_cons, replay_cons_eq_some]
      exact ⟨_, footprint, ih, hexec, by rw [hwrites]⟩
    | invalidate ordered hpending hstale => exact ih

/-- Where a committed transaction stands in the chain: on the chain that the transactions committed
before it built, it has the footprint that it was committed with, and every version it read is the
version of the key there. -/
theorem committed_at (hreads : ReadsDetermine exec) {network : Network K V T}
    (h : Reachable exec network) {later earlier : List (Endorsed K V T)}
    {endorsed : Endorsed K V T} (hsplit : network.committed = later ++ endorsed :: earlier) :
    ∃ (newer older : Chain K V) (footprint : Footprint K V),
      network.chain = newer ++ endorsed.writes :: older ∧ newer.length = later.length ∧
      replay exec (earlier.map Endorsed.tx) = some older ∧
      exec endorsed.tx older = some footprint ∧ footprint.writes = endorsed.writes ∧
      endorsed.readVersions = footprint.reads.map fun key ↦ (key, older.version key) := by
  induction h generalizing later with
  | initial => exact absurd hsplit.symm (by simp [Network.initial])
  | @step before after hreachable hstep ih =>
    cases hstep with
    | endorse tx hsnapshot hexec => exact ih hsplit
    | commit ordered hpending hcurrent =>
      cases later with
      | nil =>
        obtain ⟨rfl, rfl⟩ := List.cons.inj hsplit
        have hmem : ordered ∈ before.pending :=
          hpending ▸ List.mem_append_right _ List.mem_cons_self
        obtain ⟨footprint, hexec, hwrites, hversions⟩ :=
          hreachable.exec_of_current hreads hmem hcurrent
        exact ⟨[], before.chain, footprint, rfl, rfl, hreachable.replay_committed hreads, hexec,
          hwrites, hversions⟩
      | cons newest later =>
        obtain ⟨rfl, hbefore⟩ := List.cons.inj hsplit
        obtain ⟨newer, older, footprint, hchain, hlength, hrest⟩ := ih hbefore
        exact ⟨ordered.writes :: newer, older, footprint, congrArg _ hchain,
          congrArg (· + 1) hlength, hrest⟩
    | invalidate ordered hpending hstale => exact ih hsplit

/-- A transaction executed on the latest chain can be committed at once. -/
theorem submit {network : Network K V T} (h : Reachable exec network) {tx : T}
    {footprint : Footprint K V} (hexec : exec tx network.chain = some footprint) :
    Reachable exec ⟨footprint.writes :: network.chain, network.pending,
      endorsedOn tx network.chain footprint :: network.committed⟩ := by
  have hendorsed := h.step (.endorse tx List.suffix_rfl hexec)
  have hcurrent : (Network.mk network.chain (endorsedOn tx network.chain footprint ::
      network.pending) network.committed).Current (endorsedOn tx network.chain footprint) := by
    intro read hread
    obtain ⟨key, -, rfl⟩ := List.mem_map.mp hread
    rfl
  exact hendorsed.step (Step.commit_head rfl hcurrent)

/-- Every sequential run is a run of the network. -/
theorem of_replay {txs : List T} {chain : Chain K V} (h : replay exec txs = some chain) :
    ∃ network, Reachable exec network ∧ network.chain = chain ∧
      network.committed.map Endorsed.tx = txs := by
  refine replay_induction (motive := fun txs chain ↦ ∃ network, Reachable exec network ∧
    network.chain = chain ∧ network.committed.map Endorsed.tx = txs) ⟨_, .initial, rfl, rfl⟩ ?_ h
  rintro tx _ _ footprint - ⟨network, hreachable, rfl, rfl⟩ hexec
  exact ⟨_, hreachable.submit hexec, rfl, rfl⟩

end Reachable

end StudentStatus.Optimistic
