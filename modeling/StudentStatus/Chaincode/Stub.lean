import StudentStatus.Chaincode.Records
import StudentStatus.Interaction.Program
import StudentStatus.Optimistic.Chain
import Mathlib.Data.List.Sort
import Mathlib.Data.String.Basic

/-!
# The chaincode's environment

A contract function is a program over the calls of the chaincode stub, of the client identity and
of the clock (`Call`). Every call that returns a Go `error` is replied an `Except`, so that a
program handles or drops the error where the source does. It stops with an error it returns or with
a panic (`Abort`).

`Context.answer` is the environment in which no call fails: the client's identity, the clock
reading, and the ledger, which is the chain of the committed write sets. A read sees the committed
value only, a write is buffered. What the stub computes itself is not part of the repository:
`Stub` takes it as a parameter, `Stub.Lawful` is what is documented about it, and `fabricStub` is a
stub that behaves so.
-/

set_option autoImplicit false
set_option relaxedAutoImplicit false

namespace StudentStatus.Chaincode

open Interaction Optimistic Json

/-- The text of an error of the stub or of the identity library. -/
abbrev StubError := String

/-- An X.509 certificate, by the one field that is read. -/
structure Certificate where
  /-- `Subject.OrganizationalUnit` -/
  organizationalUnit : List String

/-- A key and its value, as an iterator yields them. -/
structure KV where
  key : String
  value : String

/-! ### The clock -/

/-- A clock reading in the calendar of the peer's time zone. -/
structure Time where
  year : ℕ
  month : ℕ
  day : ℕ
  hour : ℕ
  minute : ℕ
  second : ℕ
  nanosecond : ℕ
  /-- Minutes east of UTC. -/
  offset : ℤ
  deriving DecidableEq

namespace Time

/-- A number in decimal, padded with zeros to a width. -/
def pad (width n : ℕ) : String :=
  String.ofList ((Nat.toDigits 10 n).leftpad width '0')

/-- The zone of `time.RFC3339`: `Z` for UTC, else the signed offset. -/
def zone (offset : ℤ) : String :=
  if offset = 0 then "Z"
  else (if offset < 0 then "-" else "+") ++
    pad 2 (offset.natAbs / 60) ++ ":" ++ pad 2 (offset.natAbs % 60)

/-- `Format(time.RFC3339)`, which drops everything below the second. -/
def format (t : Time) : String :=
  pad 4 t.year ++ "-" ++ pad 2 t.month ++ "-" ++ pad 2 t.day ++ "T" ++ pad 2 t.hour ++ ":" ++
    pad 2 t.minute ++ ":" ++ pad 2 t.second ++ zone t.offset

end Time

/-! ### Calls and errors -/

/-- The calls that leave the contract's code. -/
inductive Call : Type
  | getID
  | getMSPID
  | getX509Certificate
  | getAttributeValue (name : String)
  | getState (key : String)
  | putState (key value : String)
  | createCompositeKey (objectType : String) (attributes : List String)
  | getStateByPartialCompositeKey (objectType : String) (attributes : List String)
  | getStateByRangeWithPagination (startKey endKey : String) (pageSize : Int32) (bookmark : String)
  | getHistoryForKey (key : String)
  | now

/-- What a call returns. An iterator is the list of what its `Next` returns, and an attribute or a
state that is not there is `none`. -/
@[reducible] def Reply : Call → Type
  | .getID => Except StubError String
  | .getMSPID => Except StubError String
  | .getX509Certificate => Except StubError Certificate
  | .getAttributeValue _ => Except StubError (Option String)
  | .getState _ => Except StubError (Option String)
  | .putState _ _ => Except StubError Unit
  | .createCompositeKey _ _ => Except StubError String
  | .getStateByPartialCompositeKey _ _ => Except StubError (List (Except StubError KV))
  | .getStateByRangeWithPagination _ _ _ _ =>
    Except StubError (List (Except StubError KV) × String)
  | .getHistoryForKey _ => Except StubError (List (Except StubError String))
  | .now => Time

/-- The errors that the contract returns. -/
inductive ContractError : Type
  | notStateOwner
  | failedToGetStudent (err : StubError)
  | studentNotFound (studentId : String)
  | failedToUnmarshalStudent (err : DecodeError)
  | studentAlreadyExists (studentID : String)
  | schoolIsNil
  | nameIsNull
  | accessDenied
  | failedToGetAffiliation (err : StubError)
  | affiliationNotFound
  | affiliationRequired (affiliation : String) (requiredAffiliations : List String)
  /-- An error of the stub that is returned as it is. -/
  | stub (err : StubError)
  /-- An error of the decoder that is returned as it is. -/
  | json (err : DecodeError)
  deriving DecidableEq

/-- The text of an error, up to the decoder's own part of it. -/
def ContractError.text (decoder : DecodeError → String) : ContractError → String
  | .notStateOwner => "you're not student state owner"
  | .failedToGetStudent err => "failed to get student: " ++ err
  | .studentNotFound studentId => "student not found: " ++ studentId
  | .failedToUnmarshalStudent err => "failed to unmarshal student: " ++ decoder err
  | .studentAlreadyExists studentID => "student already exists: " ++ studentID
  | .schoolIsNil => "school is nil"
  | .nameIsNull => "name is null"
  | .accessDenied => "access denied"
  | .failedToGetAffiliation err => "failed to get hf.Affiliation attribute: " ++ err
  | .affiliationNotFound => "hf.Affiliation attribute not found"
  | .affiliationRequired affiliation requiredAffiliations =>
    "user does not have required affiliation. \n your affiliation: " ++ affiliation ++
      " \n required affiliations: [" ++ " ".intercalate requiredAffiliations ++ "]"
  | .stub err => err
  | .json err => decoder err

/-- How a contract function ends without a value. -/
inductive Abort : Type
  | returned (err : ContractError)
  /-- A nil pointer dereference or an index out of range. -/
  | panic
  deriving DecidableEq

/-- A contract function. -/
abbrev Contract := Program Call Reply Abort

/-- Make a call of the environment. -/
abbrev perform (request : Call) : Contract (Reply request) := Program.ask request

section Contract

variable {α ε : Type}

/-- Return an error. -/
def fail (err : ContractError) : Contract α := Program.raise (.returned err)

/-- Return the error of a call, wrapped, or go on with its value. -/
def orFail (wrap : ε → ContractError) : Except ε α → Contract α
  | .ok value => pure value
  | .error err => fail (wrap err)

end Contract

/-! ### The environment -/

/-- The identity of the client that submitted the transaction. -/
structure ClientIdentity where
  id : String
  mspID : String
  certificate : Certificate
  attributes : List (String × String)

/-- What the stub computes. The iterators select among the keys of the world state, given in
order; a key's history is its committed values, given latest first. -/
structure Stub where
  createCompositeKey : String → List String → Except StubError String
  keysByPartialCompositeKey : List String → String → List String → Except StubError (List String)
  keysByRange : List String → String → String → Int32 → String →
    Except StubError (List String × String)
  historyForKey : List String → Except StubError (List String)

/-- The ledger: the chain of the committed write sets, texts under string keys. -/
abbrev Ledger := Chain String String

/-- The keys of the world state in order. -/
def sortedKeys (ledger : Ledger) : List String := ledger.keys.insertionSort (· ≤ ·)

theorem mem_sortedKeys {ledger : Ledger} {key : String} :
    key ∈ sortedKeys ledger ↔ (ledger.value key).isSome := by
  rw [sortedKeys, List.mem_insertionSort, Chain.mem_keys_iff]

theorem nodup_sortedKeys (ledger : Ledger) : (sortedKeys ledger).Nodup :=
  (List.perm_insertionSort _ _).nodup_iff.mpr ledger.nodup_keys

theorem pairwise_sortedKeys (ledger : Ledger) : (sortedKeys ledger).Pairwise (· < ·) :=
  (List.sortedLE_insertionSort.sortedLT_of_nodup (nodup_sortedKeys ledger)).pairwise

/-- The environment of one execution: the stub, the client and the clock. -/
structure Context where
  stub : Stub
  client : ClientIdentity
  now : Time

/-- The keys with their values, as an iterator yields them. -/
def iterate (ledger : Ledger) (keys : List String) : List (Except StubError KV) :=
  keys.filterMap fun key ↦ (ledger.value key).map fun value ↦ .ok ⟨key, value⟩

/-- The replies when no call fails. -/
def Context.answer (ctx : Context) (ledger : Ledger) : (call : Call) → Reply call
  | .getID => .ok ctx.client.id
  | .getMSPID => .ok ctx.client.mspID
  | .getX509Certificate => .ok ctx.client.certificate
  | .getAttributeValue name => .ok (ctx.client.attributes.lookup name)
  | .getState key => .ok (ledger.value key)
  | .putState key _ => if key = "" then .error "key must not be an empty string" else .ok ()
  | .createCompositeKey objectType attributes => ctx.stub.createCompositeKey objectType attributes
  | .getStateByPartialCompositeKey objectType attributes =>
    (ctx.stub.keysByPartialCompositeKey (sortedKeys ledger) objectType attributes).map
      (iterate ledger)
  | .getStateByRangeWithPagination startKey endKey pageSize bookmark =>
    (ctx.stub.keysByRange (sortedKeys ledger) startKey endKey pageSize bookmark).map
      fun page ↦ (iterate ledger page.1, page.2)
  | .getHistoryForKey key =>
    (ctx.stub.historyForKey (ledger.history key)).map fun values ↦ values.map .ok
  | .now => ctx.now

/-- The key that an event reads from the world state. -/
def readOf : Event Call Reply → Option String
  | ⟨.getState key, _⟩ => some key
  | _ => none

/-- The write that an event buffers. -/
def writeOf : Event Call Reply → Option (String × String)
  | ⟨.putState key value, .ok _⟩ => some (key, value)
  | _ => none

/-! ### The documented behaviour of the stub -/

/-- The character that separates the parts of a composite key. -/
def minUnicodeRune : Char := '\x00'

/-- The character after every key of a range. -/
def maxUnicodeRune : Char := Char.ofNat 0x10FFFF

/-- A text that may be a part of a composite key. -/
def isCompositeKeyPart (part : String) : Bool :=
  part.toList.all fun c ↦ c ≠ minUnicodeRune ∧ c ≠ maxUnicodeRune

/-- The composite key of an object type and attributes: U+0000, then every part closed by
U+0000. -/
def compositeKey (objectType : String) (attributes : List String) : String :=
  String.ofList (minUnicodeRune ::
    (objectType :: attributes).flatMap fun part ↦ part.toList ++ [minUnicodeRune])

/-- A key that starts with another. -/
def extendsKey (start key : String) : Bool := start.toList.isPrefixOf key.toList

/-- What is documented about the stub. -/
structure Stub.Lawful (stub : Stub) : Prop where
  createCompositeKey_ok : ∀ objectType attributes,
    (objectType :: attributes).all isCompositeKeyPart →
    stub.createCompositeKey objectType attributes = .ok (compositeKey objectType attributes)
  createCompositeKey_error : ∀ objectType attributes,
    ¬ (objectType :: attributes).all isCompositeKeyPart →
    ∃ err, stub.createCompositeKey objectType attributes = .error err
  keysByPartialCompositeKey_eq : ∀ keys objectType attributes start,
    stub.createCompositeKey objectType attributes = .ok start →
    stub.keysByPartialCompositeKey keys objectType attributes = .ok (keys.filter (extendsKey start))
  keysByPartialCompositeKey_error : ∀ keys objectType attributes err,
    stub.createCompositeKey objectType attributes = .error err →
    ∃ err', stub.keysByPartialCompositeKey keys objectType attributes = .error err'
  historyForKey_perm : ∀ values, ∃ listed, stub.historyForKey values = .ok listed ∧
    listed.Perm values

/-- A stub that behaves as documented: its range scan starts at the bookmark, or after the
composite keys, and its bookmark is the next key; its histories are latest first. -/
def fabricStub : Stub where
  createCompositeKey objectType attributes :=
    if (objectType :: attributes).all isCompositeKeyPart then
      .ok (compositeKey objectType attributes)
    else .error "input contains unicode U+0000 or U+10FFFF, which is not allowed"
  keysByPartialCompositeKey keys objectType attributes :=
    if (objectType :: attributes).all isCompositeKeyPart then
      .ok (keys.filter (extendsKey (compositeKey objectType attributes)))
    else .error "input contains unicode U+0000 or U+10FFFF, which is not allowed"
  keysByRange keys startKey endKey pageSize bookmark :=
    let start := if bookmark ≠ "" then bookmark else if startKey = "" then "\x01" else startKey
    let range := keys.filter fun key ↦ start ≤ key ∧ (endKey = "" ∨ key < endKey)
    let size := if pageSize ≤ 0 then range.length else pageSize.toInt.toNat
    .ok (range.take size, (range[size]?).getD "")
  historyForKey values := .ok values

theorem fabricStub_lawful : fabricStub.Lawful where
  createCompositeKey_ok _ _ h := if_pos h
  createCompositeKey_error _ _ h := ⟨_, if_neg h⟩
  keysByPartialCompositeKey_eq keys objectType attributes start h := by
    unfold fabricStub at h ⊢
    dsimp only at h ⊢
    split_ifs at h ⊢ with hparts
    rw [Except.ok.inj h]
  keysByPartialCompositeKey_error keys objectType attributes err h := by
    unfold fabricStub at h ⊢
    dsimp only at h ⊢
    split_ifs at h ⊢
    exact ⟨_, rfl⟩
  historyForKey_perm values := ⟨values, rfl, List.Perm.refl _⟩

end StudentStatus.Chaincode
