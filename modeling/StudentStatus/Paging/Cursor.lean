import Mathlib.Data.List.NodupEquivFin
import Mathlib.Order.WellFounded

/-!
# Paging through an ordered key space

A page of a list of keys holds at most a number of them and names the key after them. Where the
keys ascend, the keys from that one on are the rest of the list (`startingAt_of_page`), so a client
that goes on from the named key sees every key once: whatever the pages hold of their keys, the
walk concatenates it over the whole list (`walk_eq`).

Dropping keys before paging is not the same as dropping them from each page. The named key is the
same exactly when the list fits on the page or nothing is dropped up to and including that key
(`getElem?_filter_eq_iff`).
-/

set_option autoImplicit false
set_option relaxedAutoImplicit false

namespace StudentStatus.Paging

section Page

variable {K : Type}

/-- The keys on a page, at most `size` of them if there is a bound. -/
def onPage : (size : Option ℕ) → List K → List K
  | none, keys => keys
  | some size, keys => keys.take size

/-- The keys after a page. -/
def afterPage : (size : Option ℕ) → List K → List K
  | none, _ => []
  | some size, keys => keys.drop size

/-- A page of the keys and the key after it. -/
def page (size : Option ℕ) (keys : List K) : List K × Option K :=
  (onPage size keys, (afterPage size keys).head?)

theorem onPage_append_afterPage (size : Option ℕ) (keys : List K) :
    onPage size keys ++ afterPage size keys = keys := by
  cases size with
  | none => exact List.append_nil keys
  | some size => exact List.take_append_drop size keys

/-- Fewer keys are left after a page that is not of size zero. -/
theorem length_afterPage_lt {size : Option ℕ} (hsize : size ≠ some 0) {keys : List K}
    (hkeys : keys ≠ []) : (afterPage size keys).length < keys.length := by
  have hlength := List.length_pos_iff.mpr hkeys
  cases size with
  | none => exact hlength
  | some size =>
    have hpos : size ≠ 0 := fun hzero ↦ hsize (congrArg some hzero)
    rw [afterPage, List.length_drop]
    omega

/-- The keys from a key on. -/
def startingAt [LinearOrder K] (start : K) (keys : List K) : List K :=
  keys.filter fun key ↦ start ≤ key

theorem mem_startingAt [LinearOrder K] {start key : K} {keys : List K} :
    key ∈ startingAt start keys ↔ key ∈ keys ∧ start ≤ key := by
  rw [startingAt, List.mem_filter, decide_eq_true_eq]

/-- In ascending keys, those from one of them on are the rest of the list. -/
theorem startingAt_append_cons [LinearOrder K] {earlier rest : List K} {next : K}
    (hsorted : (earlier ++ next :: rest).Pairwise (· < ·)) :
    startingAt next (earlier ++ next :: rest) = next :: rest := by
  obtain ⟨-, hrest, hbefore⟩ := List.pairwise_append.mp hsorted
  have hearlier : startingAt next earlier = [] :=
    List.filter_eq_nil_iff.mpr fun key hkey ↦ by
      simpa using hbefore key hkey next List.mem_cons_self
  have hfrom : startingAt next (next :: rest) = next :: rest :=
    List.filter_eq_self.mpr fun key hkey ↦ by
      rcases List.mem_cons.mp hkey with rfl | hkey
      · simp
      · simpa using (List.rel_of_pairwise_cons hrest hkey).le
  rw [startingAt, List.filter_append]
  change startingAt next earlier ++ startingAt next (next :: rest) = _
  rw [hearlier, hfrom, List.nil_append]

/-- Going on from the key after a page, what is left after the page is left. -/
theorem startingAt_of_page [LinearOrder K] {keys : List K} (hsorted : keys.Pairwise (· < ·))
    {size : Option ℕ} {next : K} (hnext : (page size keys).2 = some next) :
    startingAt next keys = afterPage size keys := by
  obtain ⟨rest, hrest⟩ := List.head?_eq_some_iff.mp hnext
  rw [← onPage_append_afterPage size keys, hrest] at hsorted
  conv_lhs => rw [← onPage_append_afterPage size keys, hrest]
  rw [startingAt_append_cons hsorted, hrest]

/-- Going on from a later key forgets an earlier start. -/
theorem startingAt_startingAt [LinearOrder K] {start next : K} (h : start ≤ next)
    (keys : List K) : startingAt next (startingAt start keys) = startingAt next keys := by
  rw [startingAt, startingAt, List.filter_filter, startingAt]
  refine List.filter_congr fun key _ ↦ ?_
  rw [← Bool.decide_and]
  exact decide_eq_decide.mpr ⟨And.left, fun hnext ↦ ⟨hnext, h.trans hnext⟩⟩

theorem startingAt_filter [LinearOrder K] (start : K) (kept : K → Bool) (keys : List K) :
    startingAt start (keys.filter kept) = (startingAt start keys).filter kept :=
  List.filter_comm _ _ _

/-! ### Dropping keys before paging -/

/-- A page whose keys are all kept is the same when keys are dropped first. -/
theorem onPage_filter {size : Option ℕ} {keys : List K} {kept : K → Bool}
    (hkept : ∀ key ∈ onPage size keys, kept key) :
    onPage size (keys.filter kept) = onPage size keys := by
  cases size with
  | none => exact List.filter_eq_self.mpr hkept
  | some size =>
    change ∀ key ∈ keys.take size, kept key at hkept
    change (keys.filter kept).take size = keys.take size
    conv_lhs => rw [← List.take_append_drop size keys, List.filter_append,
      List.filter_eq_self.mpr hkept]
    rcases Nat.le_total size keys.length with hle | hle
    · rw [List.take_append_of_le_length (by rw [List.length_take, min_eq_left hle]), List.take_take,
        min_self]
    · rw [List.drop_of_length_le hle, List.filter_nil, List.append_nil, List.take_take, min_self]

/-- A key does not move up when others are dropped before it. -/
theorem le_of_getElem?_filter {keys : List K} (hnodup : keys.Nodup) {kept : K → Bool} {i j : ℕ}
    {key : K} (hfilter : (keys.filter kept)[i]? = some key) (hkeys : keys[j]? = some key) :
    i ≤ j := by
  obtain ⟨f, hf⟩ := List.sublist_iff_exists_orderEmbedding_getElem?_eq.mp
    (List.filter_sublist (p := kept) (l := keys))
  rw [hf] at hfilter
  obtain ⟨hlt, hi⟩ := List.getElem?_eq_some_iff.mp hfilter
  obtain ⟨hlt', hj⟩ := List.getElem?_eq_some_iff.mp hkeys
  have hij : f i = j := (hnodup.getElem_inj_iff).mp (hi.trans hj.symm)
  rw [← hij]
  exact f.strictMono.le_apply

/-- The key after a page is the same when keys are dropped first exactly when all keys fit on the
page or those up to that key are all kept. -/
theorem getElem?_filter_eq_iff {keys : List K} (hnodup : keys.Nodup) (kept : K → Bool) (size : ℕ) :
    (keys.filter kept)[size]? = keys[size]? ↔
      keys.length ≤ size ∨ ∀ key ∈ keys.take (size + 1), kept key := by
  induction keys generalizing size with
  | nil => simp
  | cons key keys ih =>
    obtain ⟨hfresh, hnodup⟩ := List.nodup_cons.mp hnodup
    cases hkept : kept key with
    | true =>
      rw [List.filter_cons_of_pos hkept]
      cases size with
      | zero => simp [hkept]
      | succ size => simpa [hkept] using ih hnodup size
    | false =>
      rw [List.filter_cons_of_neg (by simp [hkept])]
      have hnever : ¬ ∀ other ∈ (key :: keys).take (size + 1), kept other := fun hall ↦ by
        simpa [hkept] using hall key (by simp)
      rw [or_iff_left hnever]
      cases size with
      | zero =>
        refine iff_of_false (fun h ↦ ?_) (by simp)
        exact hfresh (List.mem_filter.mp (List.mem_of_getElem? h)).1
      | succ size =>
        rw [List.getElem?_cons_succ, List.length_cons, Nat.succ_le_succ_iff]
        constructor
        · intro h
          by_contra hlt
          rw [List.getElem?_eq_getElem (Nat.lt_of_not_le hlt)] at h
          have hle := le_of_getElem?_filter hnodup h (List.getElem?_eq_getElem _)
          exact absurd hle (Nat.not_succ_le_self size)
        · intro hle
          rw [List.getElem?_eq_none_iff.mpr hle, List.getElem?_eq_none_iff]
          exact (List.length_filter_le _ _).trans (hle.trans (Nat.le_succ size))

end Page

/-! ### Walking through the pages -/

section Walk

variable {C A E K : Type} [DecidableEq C]

/-- Fetch pages from a cursor on until the cursor of the next page is `last`, and concatenate their
items; `none` when the fuel does not suffice. -/
def walk (fetch : C → Except E (List A × C)) (last : C) : ℕ → C → Option (Except E (List A))
  | 0, _ => none
  | fuel + 1, cursor =>
    match fetch cursor with
    | .error err => some (.error err)
    | .ok (items, next) =>
      if next = last then some (.ok items)
      else (walk fetch last fuel next).map fun later ↦ later.map fun more ↦ items ++ more

variable {fetch : C → Except E (List A × C)} {last : C}

/-- Where each page holds the items of the next `size` keys and leads to the rest of the keys, the
walk yields the items of all keys. -/
theorem walk_eq (At : C → List K → Prop) (itemsOf : List K → List A) {size : Option ℕ}
    (hsize : size ≠ some 0)
    (happend : ∀ first rest, itemsOf (first ++ rest) = itemsOf first ++ itemsOf rest)
    (hfetch : ∀ cursor keys, At cursor keys → ∃ next,
      fetch cursor = .ok (itemsOf (onPage size keys), next) ∧
        (next = last ↔ afterPage size keys = []) ∧ (next ≠ last → At next (afterPage size keys)))
    {fuel : ℕ} {cursor : C} {keys : List K} (hat : At cursor keys) (hfuel : keys.length < fuel) :
    walk fetch last fuel cursor = some (.ok (itemsOf keys)) := by
  induction fuel generalizing cursor keys with
  | zero => exact absurd hfuel (Nat.not_lt_zero _)
  | succ fuel ih =>
    obtain ⟨next, hpage, hlast, hat'⟩ := hfetch cursor keys hat
    have hsplit := onPage_append_afterPage size keys
    simp only [walk, hpage]
    by_cases hnext : next = last
    · rw [hlast.mp hnext, List.append_nil] at hsplit
      rw [if_pos hnext, hsplit]
    · -- the measure is the number of keys that remain
      have hkeys : keys ≠ [] := fun hnil ↦ hnext <| hlast.mpr <|
        (List.append_eq_nil_iff.mp (hsplit.trans hnil)).2
      have hrest := ih (hat' hnext)
        ((length_afterPage_lt hsize hkeys).trans_le (Nat.le_of_lt_succ hfuel))
      rw [if_neg hnext, hrest]
      change some (Except.ok (itemsOf (onPage size keys) ++ itemsOf (afterPage size keys))) = _
      rw [← happend, hsplit]

end Walk

end StudentStatus.Paging
