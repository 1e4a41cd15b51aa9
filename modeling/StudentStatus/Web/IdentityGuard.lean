import StudentStatus.Chaincode.Affiliations
import StudentStatus.Interaction.History
import StudentStatus.Json.Stringify
import StudentStatus.Regex.Sequence

/-!
# The identity guard

`DirectiveIdentityGuard` hides an element from users whose affiliation does not match a pattern. It
runs when the element is mounted and on every update. The display that it hides is kept on the
element, but an invocation for an unauthorised user that finds the element hidden takes the branch
that shows it again: the element is hidden exactly when the number of invocations since the last
authorised one is odd (`elementAfter_eq`). So it is right at every moment exactly when no two
invocations in a row are unauthorised (`throughout_guarded_iff`).

`me.vue` hands it a pattern in which brackets make a class of letters out of the names of the
organisations. What this pattern accepts and what `AssertManager` accepts are compared in
`shown_agrees_iff`.
-/

set_option autoImplicit false
set_option relaxedAutoImplicit false

namespace StudentStatus.Web

open Interaction Json Chaincode

/-! ### The directive -/

/-- The user of the page, by the affiliation of the identity in the application metadata. -/
structure PageUser where
  affiliation : JsString

structure IdentityGuardBinding where
  affiliation : JsString

/-- An element by its inline display and by `_DirectiveIdentityGuard.display`. -/
structure Element where
  display : String
  saved : Option String
  deriving DecidableEq

/-- Assign `el.style.display`; a value that is `undefined` is not one of the property and is
ignored. -/
def Element.setDisplay (el : Element) : Option String → Element
  | some display => { el with display := display }
  | none => el

section Directive

variable (isMatch : JsString → JsString → Bool)

/-- The user is there and has an affiliation that matches. -/
def isVisible (user : Option PageUser) (binding : IdentityGuardBinding) : Bool :=
  match user with
  | some user => isMatch user.affiliation binding.affiliation
  | none => false

/-- The directive, where `isMatch` tells whether `match` finds a pattern in a text. -/
def directiveIdentityGuard (server : Bool) (user : Option PageUser)
    (binding : IdentityGuardBinding) (el : Element) : Element :=
  if server then el
  else
    let visible := isVisible isMatch user binding
    let displayBefore := el.saved
    if !visible ∧ el.display ≠ "none" then
      let el := { el with saved := some el.display }
      { el with display := "none" }
    else if el.display = "none" then
      let el := el.setDisplay displayBefore
      { el with saved := none }
    else el

/-- An invocation in the browser. -/
structure Invocation where
  user : Option PageUser
  binding : IdentityGuardBinding

def Invocation.authorised (invocation : Invocation) : Bool :=
  isVisible isMatch invocation.user invocation.binding

/-- The element after a history of invocations, shown with a display at first. -/
def elementAfter (display : String) (history : List Invocation) : Element :=
  stateAfter (fun invocation el ↦
    directiveIdentityGuard isMatch false invocation.user invocation.binding el)
    ⟨display, none⟩ history

/-- How many invocations there were since the last authorised one. -/
def unauthorisedRun (history : List Invocation) : ℕ :=
  (history.takeWhile fun invocation ↦ !invocation.authorised isMatch).length

/-- After the last invocation the element is hidden from a user who is not authorised, and has its
display for one who is. -/
def Guarded (display : String) : List Invocation → Prop
  | [] => True
  | invocation :: earlier =>
    (elementAfter isMatch display (invocation :: earlier)).display =
      if invocation.authorised isMatch then display else "none"

/-- The invocation and the one before it are both unauthorised. -/
def Repeats (invocation : Invocation) (earlier : List Invocation) : Prop :=
  invocation.authorised isMatch = false ∧
    ∃ previous, earlier.head? = some previous ∧ previous.authorised isMatch = false

variable {isMatch} {display : String}

theorem unauthorisedRun_cons (invocation : Invocation) (earlier : List Invocation) :
    unauthorisedRun isMatch (invocation :: earlier) =
      if invocation.authorised isMatch then 0 else unauthorisedRun isMatch earlier + 1 := by
  unfold unauthorisedRun
  rw [List.takeWhile_cons]
  cases invocation.authorised isMatch <;> rfl

/-- An invocation on a shown element hides it from a user who is not authorised. -/
theorem directiveIdentityGuard_shown (hdisplay : display ≠ "none") (user : Option PageUser)
    (binding : IdentityGuardBinding) :
    directiveIdentityGuard isMatch false user binding ⟨display, none⟩ =
      if isVisible isMatch user binding then ⟨display, none⟩ else ⟨"none", some display⟩ := by
  unfold directiveIdentityGuard
  cases isVisible isMatch user binding <;> simp [hdisplay]

/-- An invocation on a hidden element shows it, whether the user is authorised or not. -/
theorem directiveIdentityGuard_hidden (display : String) (user : Option PageUser)
    (binding : IdentityGuardBinding) :
    directiveIdentityGuard isMatch false user binding ⟨"none", some display⟩ =
      ⟨display, none⟩ := by
  simp [directiveIdentityGuard, Element.setDisplay]

/-- The element is hidden, with its display kept, exactly when the number of invocations since the
last authorised one is odd. -/
theorem elementAfter_eq (hdisplay : display ≠ "none") (history : List Invocation) :
    elementAfter isMatch display history =
      if Odd (unauthorisedRun isMatch history) then ⟨"none", some display⟩
      else ⟨display, none⟩ := by
  induction history with
  | nil => rfl
  | cons invocation earlier ih =>
    change directiveIdentityGuard isMatch false invocation.user invocation.binding
      (elementAfter isMatch display earlier) = _
    rw [ih, unauthorisedRun_cons]
    by_cases hodd : Odd (unauthorisedRun isMatch earlier)
    · rw [if_pos hodd, directiveIdentityGuard_hidden]
      cases invocation.authorised isMatch <;> simp [hodd, Nat.odd_add_one]
    · rw [if_neg hodd, directiveIdentityGuard_shown hdisplay]
      change (if invocation.authorised isMatch then _ else _) = _
      cases invocation.authorised isMatch <;> simp [hodd, Nat.odd_add_one]

/-- The element is right after an invocation exactly when the user is authorised or the number of
unauthorised invocations before it is even. -/
theorem guarded_cons_iff (hdisplay : display ≠ "none") (invocation : Invocation)
    (earlier : List Invocation) :
    Guarded isMatch display (invocation :: earlier) ↔
      (invocation.authorised isMatch = false → ¬ Odd (unauthorisedRun isMatch earlier)) := by
  rw [Guarded, elementAfter_eq hdisplay, unauthorisedRun_cons]
  cases invocation.authorised isMatch with
  | true => simp
  | false =>
    by_cases hodd : Odd (unauthorisedRun isMatch earlier) <;> simp [hodd, hdisplay, Nat.odd_add_one]

/-- Where the element was right before, the number of unauthorised invocations is odd exactly when
the last one was unauthorised. -/
theorem odd_unauthorisedRun_iff (hdisplay : display ≠ "none") {earlier : List Invocation}
    (h : Guarded isMatch display earlier) :
    Odd (unauthorisedRun isMatch earlier) ↔
      ∃ previous, earlier.head? = some previous ∧ previous.authorised isMatch = false := by
  cases earlier with
  | nil => simp [unauthorisedRun]
  | cons previous before =>
    rw [guarded_cons_iff hdisplay] at h
    rw [unauthorisedRun_cons, List.head?_cons]
    cases hprevious : previous.authorised isMatch with
    | true => simp [hprevious]
    | false => simp [hprevious, Nat.odd_add_one, h hprevious]

/-- The element is right at every moment exactly when no two invocations in a row are
unauthorised. -/
theorem throughout_guarded_iff (isMatch : JsString → JsString → Bool) {display : String}
    (hdisplay : display ≠ "none") (history : List Invocation) :
    Throughout (Guarded isMatch display) history ↔
      EveryEvent (fun invocation earlier ↦ ¬ Repeats isMatch invocation earlier) history := by
  refine throughout_iff_everyEvent trivial (fun invocation earlier hearlier ↦ ?_) history
  rw [guarded_cons_iff hdisplay,
    odd_unauthorisedRun_iff hdisplay (hearlier earlier List.suffix_rfl), Repeats, not_and]

/-- Nobody is logged in. -/
def anonymous : Invocation := ⟨none, ⟨[]⟩⟩

/-- Somebody is logged in. -/
def loggedIn : Invocation := ⟨some ⟨[]⟩, ⟨[]⟩⟩

/-- An element that is hidden, shown after a login and hidden again is right all the time. -/
theorem throughout_guarded_login :
    Throughout (Guarded (fun _ _ ↦ true) "") [anonymous, loggedIn, anonymous] := by
  refine (throughout_guarded_iff (fun _ _ ↦ true) (by decide) _).mpr ?_
  simp [everyEvent_cons, everyEvent_nil, Repeats, Invocation.authorised, isVisible, anonymous,
    loggedIn]

/-- The second update in a row shows the element to nobody. -/
theorem not_throughout_guarded_twice :
    elementAfter (fun _ _ ↦ true) "" [anonymous, anonymous] = ⟨"", none⟩ ∧
      ¬ Throughout (Guarded (fun _ _ ↦ true) "") [anonymous, anonymous] := by
  have helement : elementAfter (fun _ _ ↦ true) "" [anonymous, anonymous] = ⟨"", none⟩ := by
    decide
  refine ⟨helement, fun h ↦ ?_⟩
  have hguarded := h _ List.suffix_rfl
  rw [Guarded, helement] at hguarded
  exact absurd hguarded (by decide)

end Directive

/-! ### The guard of `me.vue` -/

def managerPattern : JsString := units "[school1|school2|bureau].manager"

/-- `text.match(pattern)` is not null. -/
def jsMatch (text pattern : JsString) : Bool := Regex.isMatch text pattern = some true

/-- The guard lets a user with this affiliation see the button. -/
def Shown (affiliation : String) : Prop :=
  isVisible jsMatch (some ⟨units affiliation⟩) ⟨managerPattern⟩ = true

/-- The text has a letter of the organisations' names or a bar, any one unit that does not end a
line, and `manager`. -/
def NamesManager (affiliation : String) : Prop :=
  ∃ before letter separator after,
    units affiliation = before ++ ((letter :: separator :: units "manager") ++ after) ∧
      letter ∈ units "school1|school2|bureau" ∧ Regex.isLineTerminator separator = false

/-- The brackets of the pattern are read as a class and its dot as any unit. -/
theorem parse_managerPattern : Regex.parse none managerPattern =
    some (.oneOf (units "school1|school2|bureau") :: .any :: (units "manager").map .unit) := by
  decide +kernel

theorem shown_iff (affiliation : String) : Shown affiliation ↔ NamesManager affiliation := by
  have hunit (u v : UInt16) : Regex.Atom.accepts (.unit u) v = true ↔ u = v := by
    simp [Regex.Atom.accepts]
  have hmatch : Shown affiliation ↔ Regex.search Regex.Atom.accepts
      (.oneOf (units "school1|school2|bureau") :: .any :: (units "manager").map .unit)
      (units affiliation) = true := by
    simp [Shown, isVisible, jsMatch, Regex.isMatch, parse_managerPattern]
  rw [hmatch, Regex.search_iff, NamesManager]
  simp only [Regex.matches_cons_iff, Regex.matches_map_iff hunit]
  constructor
  · rintro ⟨before, _, after, heq, letter, _, rfl, hletter, separator, _, rfl, hseparator, rfl⟩
    refine ⟨before, letter, separator, after, heq, ?_, ?_⟩
    · simpa [Regex.Atom.accepts] using hletter
    · simpa [Regex.Atom.accepts] using hseparator
  · rintro ⟨before, letter, separator, after, heq, hletter, hseparator⟩
    refine ⟨before, _, after, heq, letter, _, rfl, ?_, separator, _, rfl, ?_, rfl⟩
    · simpa [Regex.Atom.accepts] using hletter
    · simpa [Regex.Atom.accepts] using hseparator

theorem exists_units_append {text affiliation : String} (h : text.toList <+: affiliation.toList) :
    ∃ after, units affiliation = units text ++ after := by
  obtain ⟨rest, hrest⟩ := h
  exact ⟨rest.flatMap charUnits, by rw [units, ← hrest, List.flatMap_append]; rfl⟩

/-- An affiliation whose segments begin with those of a manager affiliation is one that the pattern
finds. -/
theorem namesManager_of_begins {required affiliation : String}
    (hrequired : required ∈ managerAffiliations)
    (hbegins : splitDots required <+: splitDots affiliation) : NamesManager affiliation := by
  have hpattern : ∃ before letter separator,
      units required = before ++ (letter :: separator :: units "manager") ∧
        letter ∈ units "school1|school2|bureau" ∧
        Regex.isLineTerminator separator = false := by
    simp only [managerAffiliations, List.mem_cons, List.not_mem_nil, or_false] at hrequired
    rcases hrequired with rfl | rfl | rfl
    · exact ⟨units "burea", 0x75, 0x2E, by decide +kernel, by decide +kernel, rfl⟩
    · exact ⟨units "school", 0x31, 0x2E, by decide +kernel, by decide +kernel, rfl⟩
    · exact ⟨units "school", 0x32, 0x2E, by decide +kernel, by decide +kernel, rfl⟩
  obtain ⟨before, letter, separator, hunits, hletter, hseparator⟩ := hpattern
  obtain ⟨after, hafter⟩ := exists_units_append (splitDots_prefix_iff.mp hbegins).begins
  exact ⟨before, letter, separator, after, by rw [hafter, hunits, List.append_assoc], hletter,
    hseparator⟩

/-- The chaincode does not look at the client's affiliation. -/
def Exempt (client : ClientIdentity) : Prop :=
  "admin" ∈ client.certificate.organizationalUnit ∨ client.mspID = educationBureauMSP

/-- The guard and the chaincode agree exactly when the pattern finds the affiliation of an exempt
client, and finds that of another only if its segments begin with those of a manager
affiliation. -/
theorem shown_agrees_iff {client : ClientIdentity} {affiliation : String}
    (hattribute : client.attributes.lookup "hf.Affiliation" = some affiliation) :
    (Shown affiliation ↔ IsManager client) ↔
      (Exempt client → NamesManager affiliation) ∧
        (¬ Exempt client → NamesManager affiliation →
          ∃ required ∈ managerAffiliations, splitDots required <+: splitDots affiliation) := by
  have hmanager : IsManager client ↔ Exempt client ∨
      ∃ required ∈ managerAffiliations, splitDots required <+: splitDots affiliation := by
    rw [IsManager, affiliationCheck_eq_ok_iff, HasAffiliation, hattribute, ← or_assoc]
    simp [Exempt]
  have hfinds : (∃ required ∈ managerAffiliations, splitDots required <+: splitDots affiliation) →
      NamesManager affiliation := by
    rintro ⟨required, hrequired, hbegins⟩
    exact namesManager_of_begins hrequired hbegins
  rw [shown_iff, hmanager]
  by_cases hexempt : Exempt client
  · simp [hexempt]
  · simp only [hexempt, false_or, false_implies, not_false_eq_true, true_implies, true_and]
    exact ⟨Iff.mp, fun h ↦ ⟨h, hfinds⟩⟩

/-- They agree about a manager of the first school. -/
theorem shown_agrees_school1Manager : Shown "school1.manager" ↔ IsManager school1Manager :=
  (@shown_agrees_iff school1Manager "school1.manager" rfl).mpr
    ⟨fun hexempt ↦ by
      rcases hexempt with hadmin | hmsp
      · exact absurd hadmin (by decide)
      · exact absurd hmsp (by decide),
    fun _ _ ↦ ⟨"school1.manager", by decide, List.prefix_rfl⟩⟩

/-- The guard shows the button to a client whom the chaincode refuses. -/
theorem not_shown_agrees_managerial :
    (manager "School1MSP" "school1.managerial").attributes.lookup "hf.Affiliation" =
        some "school1.managerial" ∧
      Shown "school1.managerial" ∧ ¬ IsManager (manager "School1MSP" "school1.managerial") ∧
      ¬ (Shown "school1.managerial" ↔ IsManager (manager "School1MSP" "school1.managerial")) := by
  have hshown : Shown "school1.managerial" := by
    unfold Shown
    decide +kernel
  have hmanager : ¬ IsManager (manager "School1MSP" "school1.managerial") := by decide +kernel
  exact ⟨rfl, hshown, hmanager, fun h ↦ hmanager (h.mp hshown)⟩

end StudentStatus.Web
