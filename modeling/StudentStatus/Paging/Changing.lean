import Mathlib.Data.List.Chain
import StudentStatus.Paging.Cursor

/-!
# Paging while the keys change

The pages of a walk are read one after the other, and in between keys may come and go. A page that
starts at one key and names another is responsible for the keys between the two (`Visit.Covers`):
it shows exactly those of them that are there when it is read (`Visit.mem_shown_iff`). Each page
goes on where the one before it ended, so the keys of one page come before those of the next
(`pairwise_covers`), and once a page names no key every key from the first start on belongs to a
page (`exists_covers`).
-/

set_option autoImplicit false
set_option relaxedAutoImplicit false

namespace StudentStatus.Paging

variable {K : Type} [LinearOrder K]

/-- A page that was read: the keys as they were then, where it started and how many it holds. -/
structure Visit (K : Type) where
  keys : List K
  start : K
  size : Option ℕ

namespace Visit

/-- The keys on the page. -/
def shown (visit : Visit K) : List K := onPage visit.size (startingAt visit.start visit.keys)

/-- The key after the page. -/
def next (visit : Visit K) : Option K :=
  (afterPage visit.size (startingAt visit.start visit.keys)).head?

/-- The key is one of those that the page is responsible for. -/
def Covers (visit : Visit K) (key : K) : Prop :=
  visit.start ≤ key ∧ ∀ next ∈ visit.next, key < next

/-- The later page goes on where the earlier one ended. -/
def Follows (earlier later : Visit K) : Prop := earlier.next = some later.start

theorem shown_sublist (visit : Visit K) : visit.shown.Sublist visit.keys := by
  have hbegins : visit.shown <+: startingAt visit.start visit.keys :=
    ⟨_, onPage_append_afterPage visit.size _⟩
  exact hbegins.sublist.trans List.filter_sublist

theorem pairwise_shown {visit : Visit K} (hsorted : visit.keys.Pairwise (· < ·)) :
    visit.shown.Pairwise (· < ·) := hsorted.sublist visit.shown_sublist

/-- The key after a page is one from its start on. -/
theorem start_le_next {visit : Visit K} {next : K} (hnext : visit.next = some next) :
    visit.start ≤ next := by
  have hmem : next ∈ startingAt visit.start visit.keys := by
    rw [← onPage_append_afterPage visit.size (startingAt visit.start visit.keys)]
    exact List.mem_append_right _ (List.mem_of_head? hnext)
  exact (mem_startingAt.mp hmem).2

/-- A page shows the keys that it is responsible for and that are there. -/
theorem mem_shown_iff {visit : Visit K} (hsorted : visit.keys.Pairwise (· < ·)) {key : K} :
    key ∈ visit.shown ↔ key ∈ visit.keys ∧ visit.Covers key := by
  have hsplit := onPage_append_afterPage visit.size (startingAt visit.start visit.keys)
  have hascending : (startingAt visit.start visit.keys).Pairwise (· < ·) := hsorted.filter _
  rw [← hsplit] at hascending
  obtain ⟨-, hafter, hbefore⟩ := List.pairwise_append.mp hascending
  have hmem : key ∈ visit.keys ∧ visit.start ≤ key ↔
      key ∈ visit.shown ∨ key ∈ afterPage visit.size (startingAt visit.start visit.keys) := by
    rw [← mem_startingAt, ← List.mem_append, shown, hsplit]
  constructor
  · intro hshown
    obtain ⟨hkey, hstart⟩ := hmem.mpr (Or.inl hshown)
    exact ⟨hkey, hstart, fun next hnext ↦ hbefore key hshown next (List.mem_of_head? hnext)⟩
  · rintro ⟨hkey, hstart, hnext⟩
    refine (hmem.mp ⟨hkey, hstart⟩).resolve_right fun hrest ↦ ?_
    -- what is left after the page is not before its first key
    obtain ⟨first, rest, hfirst⟩ := List.exists_cons_of_ne_nil (List.ne_nil_of_mem hrest)
    have hlt := hnext first (by rw [next, hfirst]; rfl)
    rw [hfirst] at hrest hafter
    rcases List.mem_cons.mp hrest with rfl | hrest
    · exact lt_irrefl _ hlt
    · exact lt_asymm hlt (List.rel_of_pairwise_cons hafter hrest)

end Visit

open Visit

variable {visits : List (Visit K)}

/-- Of two pages of a walk the later one starts at the key that the earlier one names, or later. -/
theorem pairwise_of_isChain (h : visits.IsChain Follows) :
    visits.Pairwise fun earlier later ↦ ∃ next, earlier.next = some next ∧ next ≤ later.start := by
  induction visits with
  | nil => exact .nil
  | cons visit later ih =>
    cases later with
    | nil => exact List.pairwise_singleton _ _
    | cons second later =>
      obtain ⟨hfollows, hlater⟩ := List.isChain_cons_cons.mp h
      have hpairs := ih hlater
      refine List.pairwise_cons.mpr ⟨fun last hlast ↦ ⟨_, hfollows, ?_⟩, hpairs⟩
      rcases List.mem_cons.mp hlast with rfl | hlast
      · exact le_rfl
      · obtain ⟨next, hnext, hle⟩ := List.rel_of_pairwise_cons hpairs hlast
        exact (start_le_next hnext).trans hle

/-- The keys of an earlier page come before those of a later one. -/
theorem pairwise_covers (h : visits.IsChain Follows) : visits.Pairwise fun earlier later ↦
    ∀ key key', earlier.Covers key → later.Covers key' → key < key' := by
  refine (pairwise_of_isChain h).imp ?_
  rintro earlier later ⟨next, hnext, hle⟩ key key' hkey hkey'
  exact (hkey.2 next hnext).trans_le (hle.trans hkey'.1)

/-- Once a page names no key, every key from the first start on belongs to a page. -/
theorem exists_covers (h : visits.IsChain Follows) {first last : Visit K}
    (hfirst : visits.head? = some first) (hlast : visits.getLast? = some last)
    (hend : last.next = none) {key : K} (hstart : first.start ≤ key) :
    ∃ visit ∈ visits, visit.Covers key := by
  induction visits generalizing first with
  | nil => cases hfirst
  | cons visit later ih =>
    cases hfirst
    cases later with
    | nil =>
      cases hlast
      exact ⟨visit, List.mem_singleton_self _, hstart, fun next hnext ↦ by
        cases hnext.symm.trans hend⟩
    | cons second later =>
      obtain ⟨hfollows, hlater⟩ := List.isChain_cons_cons.mp h
      by_cases hkey : key < second.start
      · refine ⟨visit, List.mem_cons_self, hstart, fun next hnext ↦ ?_⟩
        cases hfollows.symm.trans hnext
        exact hkey
      · obtain ⟨covering, hmem, hcovers⟩ := ih hlater rfl hlast (not_lt.mp hkey)
        exact ⟨covering, List.mem_cons_of_mem _ hmem, hcovers⟩

end StudentStatus.Paging
