import StudentStatus.Chaincode.ChangingListing
import StudentStatus.Web.PortalRuns
import StudentStatus.Web.StudentsPage

/-!
# What the page of the students has shown

A table of the page comes from a peer that listed it for the session's client, on a ledger that the
channel has had (`PageSound`). The tables since the first page follow each other as the pages of one
listing do, whatever happens between them: a request that is lost, a dialog that has the page read
again, a second click before the answer. What holds of a listing on a changing ledger therefore
holds of what the user has seen (`students_page`).

If nothing else happens, a manager who opens the page and clicks on until a bookmark is empty has
seen the students of the ledger (`students_page_complete`).
-/

set_option autoImplicit false
set_option relaxedAutoImplicit false

namespace StudentStatus.Web

open Interaction Optimistic Json Chaincode Paging

/-! ### What the page has been shown -/

/-- The page of the listing is one that a peer listed for the session: on a ledger that the portal's
channel has had, for a client with the credentials that the account of the session had. -/
structure ListedIn (deployment : Deployment) (session : Option UserId)
    (past : List (Moment ℕ Portal)) (page : ListingPage) : Prop where
  answered : page.Answered deployment.stub
  ledger : ∃ moment ∈ past, page.ledger <:+ moment.state.network.chain
  client : ∃ connection, Connected session connection past ∧
    page.client = (deployment.gateway connection).client

/-- What the page keeps of a page of the listing. -/
def tableOf (page : ListingPage) : Table := ⟨page.bookmark, page.data⟩

/-- The table holds what a peer listed. -/
def IsListed (deployment : Deployment) (session : Option UserId) (past : List (Moment ℕ Portal))
    (table : Table) : Prop :=
  ∃ page, ListedIn deployment session past page ∧ tableOf page = table

/-- What can be left of a request for the page at the bookmark. -/
inductive Stage (deployment : Deployment) (session : Option UserId)
    (past : List (Moment ℕ Portal)) (bookmark : String) :
    StudentsProgram (Option PaginationQueryResult) → Prop
  | sent : Stage deployment session past bookmark (studentsGet ⟨some "20", some bookmark⟩)
  | connected {connection : Connection} (h : Connected session connection past) :
      Stage deployment session past bookmark
        (evaluateStudents ⟨some "20", some bookmark⟩ connection)
  | failed (err : StudentsError) : Stage deployment session past bookmark (.done (.error err))
  | answered {data : Option PaginationQueryResult}
      (h : ∀ found ∈ data, IsListed deployment session past ⟨bookmark, found⟩) :
      Stage deployment session past bookmark (.done (.ok data))

/-- What holds of the page at every time. A table that is not of the page's bookmark was left with
the button, and the request for the next one is under way. -/
structure PageSound (deployment : Deployment) (session : Option UserId)
    (past : List (Moment ℕ Portal)) (page : StudentsPage) : Prop where
  left : ∀ table ∈ page.left, IsListed deployment session past table
  chain : page.left.IsChain Table.Follows
  first : ∀ table ∈ page.left.head?, table.bookmark = ""
  last : page.left = [] ∧ page.bookmark = "" ∨ page.bookmark ≠ "" ∧
    ∃ table ∈ page.left.getLast?, table.data.bookmark = page.bookmark
  table : ∀ table ∈ page.table, IsListed deployment session past table ∧
    (table.bookmark = page.bookmark ∨
      table.data.bookmark = page.bookmark ∧ page.request ≠ none)
  request : ∀ program ∈ page.request, Stage deployment session past page.bookmark program

section Invariant

variable {deployment : Deployment} {convert : String → Option Int64} {session : Option UserId}
  {past : List (Moment ℕ Portal)} {page : StudentsPage}

theorem ListedIn.cons {listed : ListingPage} (h : ListedIn deployment session past listed)
    (moment : Moment ℕ Portal) : ListedIn deployment session (moment :: past) listed where
  answered := h.answered
  ledger := by
    obtain ⟨earlier, hmem, hledger⟩ := h.ledger
    exact ⟨earlier, List.mem_cons_of_mem _ hmem, hledger⟩
  client := by
    obtain ⟨connection, hconnected, hclient⟩ := h.client
    exact ⟨connection, hconnected.append [moment], hclient⟩

theorem IsListed.cons {table : Table} (h : IsListed deployment session past table)
    (moment : Moment ℕ Portal) : IsListed deployment session (moment :: past) table := by
  obtain ⟨listed, hlisted, htable⟩ := h
  exact ⟨listed, hlisted.cons moment, htable⟩

theorem Stage.cons {bookmark : String} {program : StudentsProgram (Option PaginationQueryResult)}
    (h : Stage deployment session past bookmark program) (moment : Moment ℕ Portal) :
    Stage deployment session (moment :: past) bookmark program := by
  cases h with
  | sent => exact .sent
  | connected h => exact .connected (h.append [moment])
  | failed err => exact .failed err
  | answered h => exact .answered fun found hfound ↦ (h found hfound).cons moment

/-- An answer takes a request from stage to stage. -/
theorem Stage.call {moment : Moment ℕ Portal} {earlier : List (Moment ℕ Portal)}
    (hreachable : Chaincode.Reachable deployment.stub moment.state.network.chain)
    {bookmark : String} {call : StudentsCall}
    {next : StudentsReply call → StudentsProgram (Option PaginationQueryResult)}
    (h : Stage deployment session (moment :: earlier) bookmark (.call call next))
    {reply : StudentsReply call}
    (hanswer : StudentsAnswers deployment convert session moment.state call reply) :
    Stage deployment session (moment :: earlier) bookmark (next reply) := by
  generalize hprogram : Program.call call next = program at h
  cases h with
  | sent =>
    rw [studentsGet_eq_call] at hprogram
    cases hprogram
    cases hanswer with
    | user =>
      cases huser : (moment.state.world.accounts.find? fun account ↦
          some account.id = session).map Account.appMetadata with
      | none => exact .failed _
      | some appMetadata =>
        unfold studentsFor
        dsimp only
        cases hpeer : peers.find? fun peer ↦ peer.msp = appMetadata.msp with
        | none => exact .failed _
        | some peer =>
          exact .connected ((knownAs_of_find? List.mem_cons_self huser).connected hpeer)
    | noUser => exact .failed _
  | @connected connection hconnected =>
    rw [evaluateStudents_eq_call] at hprogram
    cases hprogram
    cases hanswer with
    | @evaluated _ _ _ size snapshot hsnapshot now hsize =>
      cases hdata : evaluatedPage ⟨deployment.stub, (deployment.gateway connection).client, now⟩
          snapshot size ((some bookmark).getD "") with
      | error err => exact .failed _
      | ok data =>
        refine .answered fun found hfound ↦ ?_
        obtain rfl : data = some found := hfound
        exact ⟨⟨(deployment.gateway connection).client, size, bookmark, now, snapshot, found⟩,
          ⟨⟨hreachable.of_suffix hsnapshot, evaluatedPage_eq_iff.mp hdata⟩,
            ⟨moment, List.mem_cons_self, hsnapshot⟩, connection, hconnected, rfl⟩, rfl⟩
    | notInteger hsize => exact .failed _
    | unreachable => exact .failed _
  | failed err => cases hprogram
  | answered hlisted => cases hprogram

/-- The channel of the portal has a ledger that a run of the contract builds. -/
theorem SoundPast.reachable_chain {moment : Moment ℕ Portal} {earlier : List (Moment ℕ Portal)}
    (h : SoundPast deployment (moment :: earlier)) :
    Chaincode.Reachable deployment.stub moment.state.network.chain := by
  have hreplay := h.networkSound.reachable.replay_committed (readsDetermine_executeLabelled _)
  exact ⟨_, (replay_map Prod.snd _).symm.trans hreplay⟩

theorem pageSound_opened : PageSound deployment session past .opened where
  left _ hmem := by cases hmem
  chain := .nil
  first _ hmem := by cases hmem
  last := Or.inl ⟨rfl, rfl⟩
  table _ hmem := by cases hmem
  request program hmem := by
    obtain rfl := Option.some.inj hmem
    exact .sent

theorem PageSound.cons (h : PageSound deployment session past page) (moment : Moment ℕ Portal) :
    PageSound deployment session (moment :: past) page where
  left table hmem := (h.left table hmem).cons moment
  chain := h.chain
  first := h.first
  last := h.last
  table table hmem := (h.table table hmem).imp_left fun hlisted ↦ hlisted.cons moment
  request program hmem := (h.request program hmem).cons moment

/-- A request that takes the place of another one. -/
theorem PageSound.setRequest (h : PageSound deployment session past page)
    {program : StudentsProgram (Option PaginationQueryResult)}
    (hstage : Stage deployment session past page.bookmark program) :
    PageSound deployment session past { page with request := some program } where
  left := h.left
  chain := h.chain
  first := h.first
  last := h.last
  table table hmem := (h.table table hmem).imp_right fun hrest ↦
    hrest.imp_right fun hstale ↦ ⟨hstale.1, Option.some_ne_none _⟩
  request other hmem := by
    obtain rfl := Option.some.inj hmem
    exact hstage

theorem PageSound.receive (h : PageSound deployment session past page)
    {outcome : Except StudentsError (Option PaginationQueryResult)}
    (hrequest : page.request = some (.done outcome)) :
    PageSound deployment session past (page.receive outcome) := by
  have hstage := h.request _ hrequest
  cases outcome with
  | error err => exact ⟨h.left, h.chain, h.first, h.last, nofun, nofun⟩
  | ok data =>
    refine ⟨h.left, h.chain, h.first, h.last, fun table hmem ↦ ?_, nofun⟩
    obtain ⟨found, hfound, rfl⟩ := Option.map_eq_some_iff.mp hmem
    cases hstage with
    | answered hlisted => exact ⟨hlisted found hfound, Or.inl rfl⟩

/-- A request for the first page. -/
theorem PageSound.restart (h : PageSound deployment session past page)
    (hshown : page.shownBookmark = "") :
    PageSound deployment session past
      (StudentsPage.fetch { page with bookmark := "", left := [] }) where
  left _ hmem := by cases hmem
  chain := .nil
  first _ hmem := by cases hmem
  last := Or.inl ⟨rfl, rfl⟩
  table table hmem := by
    have htable : page.table = some table := hmem
    refine ⟨(h.table table htable).1, Or.inr ⟨?_, Option.some_ne_none _⟩⟩
    rw [StudentsPage.shownBookmark, htable] at hshown
    exact hshown
  request program hmem := by
    obtain rfl := Option.some.inj hmem
    exact .sent

/-- A table of the page's bookmark goes on where the tables that were left end. -/
theorem PageSound.isChain_concat (h : PageSound deployment session past page) {table : Table}
    (hbookmark : table.bookmark = page.bookmark) :
    (page.left ++ [table]).IsChain Table.Follows := by
  refine h.chain.append (.singleton _) fun earlier hearlier later hlater ↦ ?_
  obtain rfl := Option.some.inj hlater
  rcases h.last with ⟨hnil, -⟩ | ⟨hne, last, hlast, heq⟩
  · rw [hnil] at hearlier
    cases hearlier
  · obtain rfl := Option.some.inj (hearlier.symm.trans hlast)
    rw [Table.Follows, heq]
    exact ⟨hne, hbookmark⟩

theorem PageSound.first_concat (h : PageSound deployment session past page) {table : Table}
    (hbookmark : table.bookmark = page.bookmark) :
    ∀ first ∈ (page.left ++ [table]).head?, first.bookmark = "" := by
  intro first hmem
  cases hleft : page.left with
  | nil =>
    rcases h.last with ⟨-, hempty⟩ | ⟨-, last, hlast, -⟩
    · rw [hleft] at hmem
      obtain rfl := Option.some.inj hmem
      exact hbookmark.trans hempty
    · rw [hleft] at hlast
      cases hlast
  | cons other later =>
    refine h.first first ?_
    rw [hleft] at hmem ⊢
    exact hmem

/-- A request for the page after the one that is shown. -/
theorem PageSound.leave (h : PageSound deployment session past page) {table : Table}
    (htable : page.table = some table) (hbookmark : table.bookmark = page.bookmark)
    (hnext : table.data.bookmark ≠ "") :
    PageSound deployment session past (StudentsPage.fetch
      { page with bookmark := table.data.bookmark, left := page.left ++ [table] }) where
  left other hmem := by
    rcases List.mem_append.mp hmem with hmem | hmem
    · exact h.left other hmem
    · rw [List.mem_singleton.mp hmem]
      exact (h.table table htable).1
  chain := h.isChain_concat hbookmark
  first := h.first_concat hbookmark
  last := Or.inr ⟨hnext, table, List.getLast?_concat, rfl⟩
  table other hmem := by
    obtain rfl := Option.some.inj (htable.symm.trans hmem)
    exact ⟨(h.table _ htable).1, Or.inr ⟨rfl, Option.some_ne_none _⟩⟩
  request program hmem := by
    obtain rfl := Option.some.inj hmem
    exact .sent

/-- The button does nothing while the next page is under way, and else leaves what is shown. -/
theorem PageSound.nextPage (h : PageSound deployment session past page) :
    PageSound deployment session past page.nextPage := by
  rw [StudentsPage.nextPage]
  by_cases hsame : page.shownBookmark = page.bookmark
  · rw [if_pos hsame]
    exact h
  rw [if_neg hsame]
  by_cases hempty : page.shownBookmark = ""
  · rw [if_pos hempty, hempty]
    exact h.restart hempty
  rw [if_neg hempty]
  cases htable : page.table with
  | none =>
    rw [StudentsPage.shownBookmark, htable] at hempty
    exact absurd rfl hempty
  | some table =>
    have hshown : page.shownBookmark = table.data.bookmark := by
      rw [StudentsPage.shownBookmark, htable]
      rfl
    rw [hshown] at hsame hempty ⊢
    rcases (h.table table htable).2 with hbookmark | ⟨hstale, -⟩
    · have hleft := h.leave htable hbookmark hempty
      rwa [htable] at hleft
    · exact absurd hstale hsame

/-- Every page that the browser can have is sound. -/
theorem PageSound.of_browses {running : List PortalRunning}
    (hreaches : Interaction.Reaches deployment.portal past running)
    (h : Browses deployment convert session past page) :
    PageSound deployment session past page := by
  have hsound := ((guarantees deployment).reaches hreaches).1
  clear hreaches
  induction h with
  | opened => exact pageSound_opened
  | meanwhile _ moment ih => exact (ih hsound.tail).cons moment
  | call _ hrequest hanswer ih =>
    have h := ih hsound
    exact h.setRequest ((h.request _ hrequest).call hsound.reachable_chain hanswer)
  | lost _ _ ih => exact (ih hsound).setRequest (.failed _)
  | receive _ hrequest ih => exact (ih hsound).receive hrequest
  | next _ ih => exact (ih hsound).nextPage
  | refresh _ ih => exact (ih hsound).setRequest .sent

/-- What is shown is of the page's bookmark, or the tables that were left are the pass. -/
theorem StudentsPage.pass_cases (page : StudentsPage) : page.pass = page.left ∨
    ∃ table, page.table = some table ∧ table.bookmark = page.bookmark ∧
      page.pass = page.left ++ [table] := by
  cases hcurrent : page.table.filter fun table ↦ table.bookmark = page.bookmark with
  | none =>
    refine Or.inl ?_
    rw [StudentsPage.pass, hcurrent]
    exact List.append_nil _
  | some table =>
    obtain ⟨htable, hbookmark⟩ := Option.filter_eq_some_iff.mp hcurrent
    refine Or.inr ⟨table, htable, by simpa using hbookmark, ?_⟩
    rw [StudentsPage.pass, hcurrent]
    rfl

theorem exists_pages {tables : List Table}
    (h : ∀ table ∈ tables, IsListed deployment session past table) :
    ∃ pages : List ListingPage, pages.map tableOf = tables ∧
      ∀ listed ∈ pages, ListedIn deployment session past listed := by
  induction tables with
  | nil => exact ⟨[], rfl, nofun⟩
  | cons table tables ih =>
    obtain ⟨listed, hlisted, rfl⟩ := h table List.mem_cons_self
    obtain ⟨pages, rfl, hpages⟩ := ih fun table hmem ↦ h table (List.mem_cons_of_mem _ hmem)
    exact ⟨listed :: pages, rfl, List.forall_mem_cons.mpr ⟨hlisted, hpages⟩⟩

/-- The tables of a pass are those of a listing. -/
theorem PageSound.exists_listing (h : PageSound deployment session past page) :
    ∃ pages : List ListingPage, pages.map tableOf = page.pass ∧
      (∀ listed ∈ pages, ListedIn deployment session past listed) ∧
      IsListing deployment.stub pages ∧ ∀ first ∈ pages.head?, first.bookmark = "" := by
  obtain ⟨hlisted, hchain, hfirst⟩ :
      (∀ table ∈ page.pass, IsListed deployment session past table) ∧
        page.pass.IsChain Table.Follows ∧ ∀ first ∈ page.pass.head?, first.bookmark = "" := by
    rcases page.pass_cases with hpass | ⟨table, htable, hbookmark, hpass⟩
    · rw [hpass]
      exact ⟨h.left, h.chain, h.first⟩
    · rw [hpass]
      refine ⟨List.forall_mem_append.mpr ⟨h.left, List.forall_mem_singleton.mpr ?_⟩,
        h.isChain_concat hbookmark, h.first_concat hbookmark⟩
      exact (h.table table htable).1
  obtain ⟨pages, hpages, hlistedIn⟩ := exists_pages hlisted
  rw [← hpages] at hchain hfirst
  refine ⟨pages, hpages, hlistedIn, ⟨fun listed hmem ↦ (hlistedIn listed hmem).answered,
    (List.isChain_map tableOf).mp hchain⟩, fun first hmem ↦ ?_⟩
  refine hfirst (tableOf first) ?_
  rw [List.head?_map, hmem]
  rfl

/-! ### Clicking through the pages -/

/-- The page after the answer to its request. -/
def StudentsPage.showing (page : StudentsPage) (data : PaginationQueryResult) : StudentsPage :=
  { page with table := some ⟨page.bookmark, data⟩, request := none }

theorem StudentsPage.pass_showing (page : StudentsPage) (data : PaginationQueryResult) :
    (page.showing data).pass = page.left ++ [⟨page.bookmark, data⟩] := by
  rw [StudentsPage.pass, StudentsPage.showing, Option.filter_some, if_pos (decide_eq_true rfl)]
  rfl

section Clicks

variable {moment : Moment ℕ Portal} {earlier : List (Moment ℕ Portal)} {account : Account}

/-- What the peer answers on the current ledger. -/
theorem Browses.showing (h : Browses deployment convert session (moment :: earlier) page)
    (hrequest : page.request = some (studentsGet page.query))
    (haccount : moment.state.world.accounts.find? (fun account ↦ some account.id = session) =
      some account) {peer : Peer}
    (hpeer : peers.find? (fun peer ↦ peer.msp = account.appMetadata.msp) = some peer)
    {size : Int64} (hsize : convert "20" = some size) {now : Time} {data : PaginationQueryResult}
    (hresult : (queryAllStudents size page.bookmark).result (Context.answer ⟨deployment.stub,
      deployment.clientOf peer.msp account.appMetadata.certificate, now⟩
        moment.state.network.chain) = .ok data) :
    Browses deployment convert session (moment :: earlier) (page.showing data) := by
  have hconnected : studentsFor page.query (some account.appMetadata) =
      evaluateStudents page.query
        (getGateway peer account.appMetadata.certificate account.appMetadata.key) := by
    unfold studentsFor
    simp only [hpeer]
  rw [studentsGet_eq_call] at hrequest
  have huser := h.call hrequest .user
  rw [haccount, Option.map_some, hconnected, evaluateStudents_eq_call] at huser
  have hevaluated := huser.call rfl (.evaluated _ List.suffix_rfl now hsize)
  have hdata : evaluatedPage ⟨deployment.stub,
      deployment.clientOf peer.msp account.appMetadata.certificate, now⟩
        moment.state.network.chain size page.bookmark = .ok (some data) :=
    evaluatedPage_eq_iff.mpr hresult
  have hdone : some (Program.done (evaluatedPage ⟨deployment.stub, (deployment.gateway (getGateway
      peer account.appMetadata.certificate account.appMetadata.key)).client, now⟩
        moment.state.network.chain size (page.query.bookmark.getD ""))) =
      some (.done (.ok (some data)) : StudentsProgram (Option PaginationQueryResult)) :=
    congrArg (fun outcome ↦ some (Program.done outcome)) hdata
  exact hevaluated.receive hdone

/-- With the request for a page under way, the answers and clicks that follow show the rest of the
students. -/
theorem Browses.complete {limit : ℕ} {entries : Int32 → Option ℕ}
    (hscan : deployment.stub.ScansPages limit entries)
    (hwell : Chaincode.WellFormed moment.state.network.chain)
    (haccount : moment.state.world.accounts.find? (fun account ↦ some account.id = session) =
      some account) {peer : Peer}
    (hpeer : peers.find? (fun peer ↦ peer.msp = account.appMetadata.msp) = some peer)
    (hmanager : IsManager (deployment.clientOf peer.msp account.appMetadata.certificate))
    {size : Int64} (hsize : convert "20" = some size) (hentries : entries size.toInt32 ≠ some 0)
    (h : Browses deployment convert session (moment :: earlier) page)
    (hrequest : page.request = some (studentsGet page.query)) :
    ∃ shown last, Browses deployment convert session (moment :: earlier) shown ∧
      shown.request = none ∧ shown.pass.getLast? = some last ∧ last.data.bookmark = "" ∧
      studentsOf shown.pass = studentsOf page.left ++
        listedRecords moment.state.network.chain peer.msp
          (scannedKeys moment.state.network.chain page.bookmark) := by
  generalize hkeys : scannedKeys moment.state.network.chain page.bookmark = keys
  induction hlength : keys.length using Nat.strong_induction_on generalizing page keys with
  | _ length ih =>
    subst hlength
    obtain ⟨data, hresult, hitems, hbookmark⟩ : ∃ data : PaginationQueryResult,
        (queryAllStudents size page.bookmark).result (Context.answer ⟨deployment.stub,
          deployment.clientOf peer.msp account.appMetadata.certificate, noon⟩
            moment.state.network.chain) = .ok data ∧
          data.items = listedRecords moment.state.network.chain peer.msp
            (onPage (entries size.toInt32) keys) ∧
          data.bookmark = ((afterPage (entries size.toInt32) keys).head?).getD "" := by
      refine ⟨_, queryAllStudents_eq hscan hwell hmanager _ _ _, ?_, ?_⟩
      · rw [deployment.mspID_clientOf, hkeys]
      · rw [hkeys]
    have hshowing := h.showing hrequest haccount hpeer hsize hresult
    have hsplit := onPage_append_afterPage (entries size.toInt32) keys
    have hseen : studentsOf (page.left ++ [⟨page.bookmark, data⟩]) = studentsOf page.left ++
        listedRecords moment.state.network.chain peer.msp
          (onPage (entries size.toInt32) keys) := by
      rw [studentsOf_concat, hitems]
    cases hnext : (afterPage (entries size.toInt32) keys).head? with
    | none =>
      rw [hnext, Option.getD_none] at hbookmark
      rw [List.head?_eq_none_iff.mp hnext, List.append_nil] at hsplit
      refine ⟨_, ⟨page.bookmark, data⟩, hshowing, rfl, ?_, hbookmark, ?_⟩
      · rw [StudentsPage.pass_showing, List.getLast?_concat]
      · rw [StudentsPage.pass_showing, hseen, hsplit]
    | some next =>
      rw [hnext, Option.getD_some] at hbookmark
      have hrest : scannedKeys moment.state.network.chain next =
          afterPage (entries size.toInt32) keys := by
        rw [← hkeys] at hnext ⊢
        exact hwell.scannedKeys_of_page hnext
      have hkeysNe : keys ≠ [] := by
        rintro rfl
        rw [(List.append_eq_nil_iff.mp hsplit).2] at hnext
        cases hnext
      have hlt := length_afterPage_lt hentries hkeysNe
      have hne : next ≠ page.bookmark := by
        rintro rfl
        rw [hkeys] at hrest
        exact absurd (congrArg List.length hrest) hlt.ne'
      have hnonempty : next ≠ "" :=
        hwell.ne_empty_of_mem (hrest ▸ List.mem_of_head? hnext)
      have hclick : (page.showing data).nextPage = StudentsPage.fetch { page.showing data with
          bookmark := next, left := page.left ++ [⟨page.bookmark, data⟩] } := by
        have hshown : (page.showing data).shownBookmark = next := hbookmark
        rw [StudentsPage.nextPage, hshown, if_neg hnonempty]
        exact if_neg hne
      have hclicked := hshowing.next
      rw [hclick] at hclicked
      obtain ⟨shown, last, hshown, hdone, hlast, hend, hall⟩ := ih _ hlt hclicked rfl _ hrest rfl
      refine ⟨shown, last, hshown, hdone, hlast, hend, ?_⟩
      rw [hall]
      change studentsOf (page.left ++ [⟨page.bookmark, data⟩]) ++ _ = _
      rw [hseen, List.append_assoc, ← listedRecords_append, hsplit]

end Clicks

end Invariant

/-! ### A manager of the first school -/

/-- The enrolment by another client of the channel. -/
def otherEnrolment : Endorsed String String Labelled :=
  endorsedOn (none, enrolment) [] ⟨["s1"], [("s1", marshal ada)]⟩

/-- The user has signed in and the student is enrolled. -/
theorem reaches_adaEnrolled : ∃ moment earlier running,
    Interaction.Reaches schoolPortal.portal (moment :: earlier) running ∧
      moment.state.world = worldAfter asciiCase aliceSignedIn ∧
      moment.state.network.chain = [[("s1", marshal ada)]] := by
  obtain ⟨actor, earlier, since, -, hsignedIn⟩ := reaches_aliceSignedIn
  have hexec : execute fabricStub enrolment [] = some ⟨["s1"], [("s1", marshal ada)]⟩ :=
    execute_eq_some_iff.mpr ⟨_, _, _, effect_enrolment fabricStub, rfl⟩
  have hendorsed := hsignedIn.drift (.endorse enrolment List.suffix_rfl hexec)
  have hcurrent : Network.Current ⟨[], [otherEnrolment], []⟩ otherEnrolment := by decide
  have hpending : [otherEnrolment] = [] ++ otherEnrolment :: [] := rfl
  have hcommitted := hendorsed.drift (.commit otherEnrolment hpending hcurrent)
  exact ⟨_, _, _, hcommitted, rfl, rfl⟩

theorem visibleStudents_adaEnrolled :
    visibleStudents [[("s1", marshal ada)]] "School1MSP" = [ada] := by
  have hkeys : scannedKeys [[("s1", marshal ada)]] "" = ["s1"] := by decide +kernel
  have hholds : HoldsStudent [[("s1", marshal ada)]] "s1" ada := value_ada
  rw [visibleStudents, hkeys, listedRecords_singleton hholds, if_pos (by decide)]

/-- A page size in decimal digits. -/
def decimal (text : String) : Option Int64 := parseInt64 text.toList

theorem decimal_twenty : decimal "20" = some 20 := by decide +kernel

/-- The account of the user is that of a manager, with a peer. -/
theorem exists_aliceManager {world : World} (hworld : world = worldAfter asciiCase aliceSignedIn) :
    ∃ account, world.accounts.find? (fun account ↦ some account.id = some 0) = some account ∧
      account.appMetadata.msp = "School1MSP" ∧
      IsManager (schoolPortal.clientOf account.appMetadata.msp
        account.appMetadata.certificate) := by
  obtain ⟨account, haccount, hmsp⟩ := exists_aliceAccount
  refine ⟨account, hworld ▸ haccount, hmsp, ?_⟩
  rw [hmsp]
  change IsManager (manager "School1MSP" "school1.manager")
  decide +kernel

/-- The user has been shown the student. -/
theorem browses_adaEnrolled : ∃ moment earlier running shown last,
    Interaction.Reaches schoolPortal.portal (moment :: earlier) running ∧
      Browses schoolPortal decimal (some 0) (moment :: earlier) shown ∧ shown.request = none ∧
      shown.pass.getLast? = some last ∧ last.data.bookmark = "" ∧
      studentsOf shown.pass = [ada] := by
  obtain ⟨moment, earlier, running, hreaches, hworld, hchain⟩ := reaches_adaEnrolled
  obtain ⟨account, haccount, hmsp, hmanager⟩ := exists_aliceManager hworld
  have hpeer : peers.find? (fun peer ↦ peer.msp = account.appMetadata.msp) =
      some ⟨"学校 1", "School1MSP", "peer0.school1.edu.cn:7061"⟩ := by
    rw [hmsp]
    rfl
  have hwell := ((guarantees schoolPortal).reaches hreaches).1.reachable_chain.wellFormed
  have hentries : fabricEntries (Int64.toInt32 20) ≠ some 0 := by decide
  rw [hmsp] at hmanager
  obtain ⟨shown, last, hshown, hdone, hlast, hend, hall⟩ := Browses.complete
    (fabricStub_scansPages 100000) hwell haccount hpeer hmanager decimal_twenty hentries
      (.opened : Browses schoolPortal decimal _ (moment :: earlier) _) rfl
  refine ⟨moment, earlier, running, shown, last, hreaches, hshown, hdone, hlast, hend, ?_⟩
  have hleft : studentsOf StudentsPage.opened.left = [] := rfl
  have hbookmark : StudentsPage.opened.bookmark = "" := rfl
  rw [hall, hchain, hleft, List.nil_append, hbookmark, ← visibleStudents,
    visibleStudents_adaEnrolled]

/-! ### What the user has seen -/

section Main

variable {deployment : Deployment} {convert : String → Option Int64} {session : Option UserId}
  {past : List (Moment ℕ Portal)} {page : StudentsPage}

/-- Whatever happens to the portal and to the requests of the page, and however often the button and
the dialogs are used, the tables since the first page are the pages of one listing of the channel
for the session's client, from the empty bookmark on: they hold each student once, in the order of
the IDs, and exactly those that the page that is responsible for the ID shows. When the bookmark of
the last one is empty, one of them is responsible for each ID. -/
theorem students_page {limit : ℕ} {entries : Int32 → Option ℕ} {running : List PortalRunning}
    (hscan : deployment.stub.ScansPages limit entries)
    (hreaches : Interaction.Reaches deployment.portal past running)
    (h : Browses deployment convert session past page) :
    (page.request = none → page.pass = page.left ++ page.table.toList) ∧
    ∃ pages : List ListingPage, pages.map tableOf = page.pass ∧
      (∀ listed ∈ pages, ListedIn deployment session past listed) ∧
      IsListing deployment.stub pages ∧ (∀ first ∈ pages.head?, first.bookmark = "") ∧
      (studentsOf page.pass).Pairwise (fun earlier later ↦ earlier.id < later.id) ∧
      (∀ student, student ∈ studentsOf page.pass ↔
        ∃ listed ∈ pages, listed.Covers student.id ∧
          recordAt listed.ledger student.id = some student ∧
            ListedFor listed.client.mspID student) ∧
      ∀ last, page.pass.getLast? = some last → last.data.bookmark = "" → ∀ id : StudentID,
        ∃ listed ∈ pages, listed.Covers id ∧
          ∀ other ∈ pages, other.Covers id → other = listed := by
  have hsound := PageSound.of_browses hreaches h
  constructor
  · intro hrequest
    rw [StudentsPage.pass]
    cases htable : page.table with
    | none => rfl
    | some table =>
      rcases (hsound.table table htable).2 with hbookmark | ⟨-, hsome⟩
      · rw [Option.filter_some, if_pos (by simpa using hbookmark)]
      · exact absurd hrequest hsome
  · obtain ⟨pages, hpages, hlistedIn, hlisting, hfirst⟩ := hsound.exists_listing
    have hitems : studentsOf page.pass = pages.flatMap fun listed ↦ listed.data.items := by
      rw [← hpages, studentsOf, List.flatMap_map]
      rfl
    refine ⟨pages, hpages, hlistedIn, hlisting, hfirst, ?_, fun student ↦ ?_, ?_⟩
    · rw [hitems]
      exact hlisting.pairwise_items hscan
    · rw [hitems]
      exact hlisting.mem_items_iff hscan student
    · intro last hlast hend id
      rw [← hpages, List.getLast?_map] at hlast
      obtain ⟨lastListed, hlastListed, rfl⟩ := Option.map_eq_some_iff.mp hlast
      obtain ⟨first, hhead⟩ : ∃ first, pages.head? = some first := by
        cases pages with
        | nil => cases hlastListed
        | cons first later => exact ⟨first, rfl⟩
      exact hlisting.exists_covers hscan hhead hlastListed (hfirst first hhead) hend id

/-- One of the tables that the user has been shown is responsible for the ID of the student, who is
in one of them. -/
theorem students_page_ada : ∃ moment earlier running shown,
    Interaction.Reaches schoolPortal.portal (moment :: earlier) running ∧
      Browses schoolPortal decimal (some 0) (moment :: earlier) shown ∧
      studentsOf shown.pass = [ada] ∧
      ∃ pages : List ListingPage, pages.map tableOf = shown.pass ∧
        (∀ listed ∈ pages, ListedIn schoolPortal (some 0) (moment :: earlier) listed) ∧
        IsListing fabricStub pages ∧
        ∃ listed ∈ pages, listed.Covers "s1" ∧
          ∀ other ∈ pages, other.Covers "s1" → other = listed := by
  obtain ⟨moment, earlier, running, shown, last, hreaches, hshown, -, hlast, hend, hall⟩ :=
    browses_adaEnrolled
  obtain ⟨-, pages, hpages, hlisted, hlisting, -, -, -, hcomplete⟩ :=
    students_page (fabricStub_scansPages 100000) hreaches hshown
  exact ⟨moment, earlier, running, shown, hreaches, hshown, hall, pages, hpages, hlisted, hlisting,
    hcomplete last hlast hend ⟨"s1", by decide⟩⟩

/-- A manager who opens the page while nothing else happens, and clicks on until a bookmark is
empty, has seen every student of the ledger whom the MSP may see, in the order of the IDs. -/
theorem students_page_complete {limit : ℕ} {entries : Int32 → Option ℕ}
    {moment : Moment ℕ Portal} {earlier : List (Moment ℕ Portal)} {running : List PortalRunning}
    (hscan : deployment.stub.ScansPages limit entries)
    (hreaches : Interaction.Reaches deployment.portal (moment :: earlier) running)
    {account : Account} (haccount : moment.state.world.accounts.find? (fun account ↦
      some account.id = session) = some account)
    (hmanager : IsManager (deployment.clientOf account.appMetadata.msp
      account.appMetadata.certificate))
    (hsize : convert "20" = some 20) (hlimit : 20 ≤ limit) :
    ∃ shown last, Browses deployment convert session (moment :: earlier) shown ∧
      shown.request = none ∧ shown.pass.getLast? = some last ∧ last.data.bookmark = "" ∧
      studentsOf shown.pass =
        visibleStudents moment.state.network.chain account.appMetadata.msp := by
  have hsound := ((guarantees deployment).reaches hreaches).1
  obtain ⟨peer, hpeer, hmsp⟩ := hsound.exists_peer (List.mem_of_find?_eq_some haccount)
  rw [← hmsp] at hmanager ⊢
  have hfits : (20 : Int64).toInt ≤ limit := Int.ofNat_le.mpr hlimit
  obtain ⟨hentries, hpos⟩ := hscan.entries_toInt32 (by decide) (by decide) hfits
  have hbounded : entries (Int64.toInt32 20) ≠ some 0 := by
    rw [hentries]
    exact fun hzero ↦ hpos (Option.some.inj hzero)
  exact Browses.complete hscan hsound.reachable_chain.wellFormed haccount hpeer hmanager hsize
    hbounded .opened rfl

theorem students_page_complete_ada : ∃ moment earlier running shown last,
    Interaction.Reaches schoolPortal.portal (moment :: earlier) running ∧
      Browses schoolPortal decimal (some 0) (moment :: earlier) shown ∧ shown.request = none ∧
      shown.pass.getLast? = some last ∧ last.data.bookmark = "" ∧
      studentsOf shown.pass = visibleStudents [[("s1", marshal ada)]] "School1MSP" := by
  obtain ⟨moment, earlier, running, hreaches, hworld, hchain⟩ := reaches_adaEnrolled
  obtain ⟨account, haccount, hmsp, hmanager⟩ := exists_aliceManager hworld
  obtain ⟨shown, last, hshown, hdone, hlast, hend, hall⟩ := students_page_complete
    (fabricStub_scansPages 100000) hreaches haccount hmanager decimal_twenty (by decide)
  rw [hmsp, hchain] at hall
  exact ⟨moment, earlier, running, shown, last, hreaches, hshown, hdone, hlast, hend, hall⟩

end Main

end StudentStatus.Web
