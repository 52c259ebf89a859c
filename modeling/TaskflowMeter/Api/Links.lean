import TaskflowMeter.Api.Service

/-!
# Following links

A client requests a link that a payload gives it.  The server under whose prefix the path of the
link falls takes the prefix off and hands the rest to the router.

## Main definitions

* `MeterRequest.ofLink` — the request that is made of a link.
* `LeadsTo` — a link leads to an endpoint of a run.
* `PayloadOf`, `LeadsBack` — the payloads of a run, and that their links lead back to it.

## Main results

* `leadsTo_iff` — where a link leads.
* `links_lead_back_iff` — **the links of a run lead back to it exactly when nothing in its id and in
  the prefix has a meaning in URLs.**
-/

namespace TaskflowMeter

open Url

/-- The request that a server under a prefix makes of a link, if the link falls under it. -/
def MeterRequest.ofLink (urlPrefix link : String) : Option MeterRequest :=
  let full := unquote (pathOf link.toList)
  match full.dropPrefix? urlPrefix.toList with
  | none => none
  | some _ =>
      some (MeterRequest.fromQueryString (String.ofList (queryOf link.toList))
        { path := splitPath (String.ofList full) urlPrefix, urlPrefix := urlPrefix })

/-- A link leads to an endpoint of a run. -/
def LeadsTo (urlPrefix link : String) (endpoint : Endpoint) (runId : String) : Prop :=
  ∃ request, MeterRequest.ofLink urlPrefix link = some request
    ∧ (theRouter.matchPath "GET" request.path).IsFor endpoint runId

/-- The payloads of a run, each with the endpoint it is of. -/
inductive PayloadOf (request : MeterRequest) (runId : String) : Endpoint → Json → Prop where
  | flow (snapshot : FlowSnapshot) (hrun : snapshot.runId = runId) (withAtoms withEvents : Bool) :
      PayloadOf request runId .getFlow (Serializers.flow snapshot request withAtoms withEvents)
  | atoms (service : MeterService) (payload : Json)
      (hpath : (theRouter.matchPath "GET" request.path).IsFor .getAtoms runId)
      (hpayload : service.getAtoms request = .ok payload) :
      PayloadOf request runId .getAtoms payload
  | events (page : EventPage) :
      PayloadOf request runId .getEvents (Serializers.eventPage page runId request)

/-- Every link of every payload of a run leads back to the run. -/
def LeadsBack (request : MeterRequest) (runId : String) : Prop :=
  ∀ endpoint payload, PayloadOf request runId endpoint payload →
    ∀ name link, payload.link? name = some link →
      LeadsTo request.urlPrefix link (Serializers.linkEndpoint endpoint name) runId

/-! ### Where a link leads -/

/-- A request is made of a link whose path falls under the prefix. -/
theorem ofLink_eq_some_iff {urlPrefix link : String} {request : MeterRequest} :
    MeterRequest.ofLink urlPrefix link = some request
      ↔ ∃ rest, unquote (pathOf link.toList) = urlPrefix.toList ++ rest
        ∧ request = MeterRequest.fromQueryString (String.ofList (queryOf link.toList))
          { path := if rest = [] ∧ urlPrefix ≠ "" then "/" else String.ofList rest
            urlPrefix := urlPrefix } := by
  have hpath : ∀ rest, splitPath (String.ofList (urlPrefix.toList ++ rest)) urlPrefix
      = if rest = [] ∧ urlPrefix ≠ "" then "/" else String.ofList rest := by
    intro rest
    have happend : String.ofList (urlPrefix.toList ++ rest) = urlPrefix ++ String.ofList rest := by
      rw [String.ofList_append, String.ofList_toList]
    rw [happend, splitPath_append]
    simp [String.ofList_eq_empty_iff]
  unfold MeterRequest.ofLink
  dsimp only
  cases hdrop : (unquote (pathOf link.toList)).dropPrefix? urlPrefix.toList with
  | none =>
    constructor
    · nofun
    · rintro ⟨rest, hrest, -⟩
      rw [hrest, dropPrefix?_append] at hdrop
      cases hdrop
  | some rest =>
    rw [dropPrefix?_eq_some.mp hdrop, hpath]
    constructor
    · intro h
      exact ⟨rest, rfl, (Option.some.inj h).symm⟩
    · rintro ⟨rest', hrest', rfl⟩
      rw [List.append_cancel_left hrest']

/-- **Where a link leads.** -/
theorem leadsTo_iff {endpoint : Endpoint} {rest : String} (hendpoint : endpoint.ofRun? = some rest)
    {urlPrefix link runId : String} :
    LeadsTo urlPrefix link endpoint runId
      ↔ ∃ text, unquote (pathOf link.toList) = urlPrefix.toList ++ (beforeRunId ++ text)
        ∧ runId ≠ "" ∧ text.takeWhile (· != '/') = runId.toList
        ∧ (text.dropWhile (· != '/') = rest.toList
          ∨ text.dropWhile (· != '/') = rest.toList ++ ['\n']) := by
  constructor
  · rintro ⟨request, hrequest, hfor⟩
    obtain ⟨rest', hrest', rfl⟩ := ofLink_eq_some_iff.mp hrequest
    obtain ⟨text, htext, hmatch⟩ := (isFor_matchPath_iff hendpoint).mp hfor
    refine ⟨text, ?_, hmatch⟩
    rw [hrest']
    congr 1
    change (if rest' = [] ∧ urlPrefix ≠ "" then "/" else String.ofList rest').toList
      = beforeRunId ++ text at htext
    split at htext
    · cases htext
    · rwa [String.toList_ofList] at htext
  · rintro ⟨text, hpath, hmatch⟩
    refine ⟨_, ofLink_eq_some_iff.mpr ⟨_, hpath, rfl⟩, (isFor_matchPath_iff hendpoint).mpr ?_⟩
    refine ⟨text, ?_, hmatch⟩
    exact String.toList_ofList

/-- The link of a payload of atoms. -/
theorem link_getAtoms {service : MeterService} {request : MeterRequest} {payload : Json}
    (h : service.getAtoms request = .ok payload) {name link : String}
    (hlink : payload.link? name = some link) :
    Serializers.linkEndpoint .getAtoms name = .getAtoms ∧ link = request.url request.path := by
  have hlinks : payload.field? "links"
      = some (.obj [("self", .str (request.url request.path))]) := by
    unfold MeterService.getAtoms at h
    cases hparam : request.param "run_id" with
    | error e =>
      rw [hparam] at h
      cases h
    | ok runId =>
      rw [hparam] at h
      simp only [bind, Except.bind] at h
      split at h
      · cases h
      · rw [← Except.ok.inj h]
        rfl
  have hmem := Serializers.mem_of_link? hlinks hlink
  rw [List.mem_singleton, Prod.mk.injEq, Json.str.injEq] at hmem
  obtain ⟨rfl, rfl⟩ := hmem
  exact ⟨rfl, rfl⟩

/-! ### Plain links -/

/-- The path of a run under a prefix. -/
def runPath (urlPrefix runId : String) (rest : List Char) : List Char :=
  urlPrefix.toList ++ (beforeRunId ++ (runId.toList ++ rest))

theorem toList_runUrl {endpoint : Endpoint} {rest : String}
    (hendpoint : endpoint.ofRun? = some rest)
    (request : MeterRequest) (runId : String) (query : List (String × Option String)) :
    ∃ shown, (Serializers.runUrl request endpoint.template runId query).toList
        = runPath request.urlPrefix runId rest.toList ++ shown
      ∧ (shown = [] ∨ shown.head? = some '?') := by
  rw [Serializers.runUrl, MeterRequest.url]
  split
  · refine ⟨[], ?_, Or.inl rfl⟩
    rw [String.toList_append, toList_formatTemplate hendpoint, List.append_nil]
    rfl
  · refine ⟨'?' :: (urlencode (query.filterMap fun p => p.2.map fun value => (p.1, value))).toList,
      ?_,
      Or.inr rfl⟩
    rw [String.toList_append, String.toList_append, String.toList_append,
      toList_formatTemplate hendpoint, List.append_assoc]
    rfl

theorem plain_runPath {urlPrefix runId : String} (hpre : Plain urlPrefix.toList)
    (hrun : Plain runId.toList) {rest : List Char}
      (hrest : rest = [] ∨ ∃ l, rest = '/' :: l ∧ Plain l) :
    Plain (runPath urlPrefix runId rest) := by
  have hpath : Plain (urlPrefix.toList
      ++ '/' :: ("api/v1/flows".toList ++ '/' :: runId.toList)) := by
    refine hpre.append_cons (Plain.append_cons ?_ hrun ?_ ?_ ?_ ?_) ?_ ?_ ?_ ?_ <;> decide
  have hshape : runPath urlPrefix runId rest
      = urlPrefix.toList ++ '/' :: ("api/v1/flows".toList ++ '/' :: runId.toList) ++ rest := by
    simp [runPath, beforeRunId, Routes.FLOWS]
  rw [hshape]
  rcases hrest with rfl | ⟨l, rfl, hl⟩
  · rwa [List.append_nil]
  · refine hpath.append_cons hl ?_ ?_ ?_ ?_ <;> decide

/-- **A link of plain text leads back.** -/
theorem leadsTo_of_plain {endpoint : Endpoint} {rest : String}
    (hendpoint : endpoint.ofRun? = some rest)
    {urlPrefix runId : String} (hpre : Plain urlPrefix.toList) (hrun : Plain runId.toList)
    (hne : runId ≠ "") (hslash : '/' ∉ runId.toList) {last shown : List Char}
    (hlast : last = rest.toList ∨ last = rest.toList ++ ['\n'] ∧ rest ≠ "")
    (hshown : shown = [] ∨ shown.head? = some '?') {link : String}
    (hlink : link.toList = runPath urlPrefix runId last ++ shown) :
    LeadsTo urlPrefix link endpoint runId := by
  have hrest : last = [] ∨ ∃ l, last = '/' :: l ∧ Plain l := by
    rcases hlast with rfl | ⟨rfl, hnonempty⟩
    · cases endpoint <;> cases hendpoint
      · exact Or.inl rfl
      all_goals exact Or.inr ⟨_, rfl, by decide⟩
    · cases endpoint <;> cases hendpoint
      · exact absurd rfl hnonempty
      all_goals exact Or.inr ⟨_, rfl, by decide⟩
  have hhead : last = [] ∨ last.head? = some '/' := by
    refine hrest.imp_right ?_
    rintro ⟨l, rfl, -⟩
    rfl
  obtain ⟨htake, hdrop⟩ := takeWhile_append_dropWhile_of hslash hhead
  refine (leadsTo_iff hendpoint).mpr ⟨runId.toList ++ last, ?_, hne, htake, ?_⟩
  · rw [hlink, (plain_runPath hpre hrun hrest).unquote_pathOf hshown]
    rfl
  · rw [hdrop]
    exact hlast.imp_right And.left

/-! ### Links that lead elsewhere -/

/-- **A link to a flow leads back only where prefix and id are plain.** -/
theorem plain_of_leadsTo {request : MeterRequest} {runId : String}
    (h : LeadsTo request.urlPrefix (Serializers.runUrl request Routes.FLOW runId) .getFlow runId) :
    Plain request.urlPrefix.toList ∧ Plain runId.toList := by
  obtain ⟨text, hpath, -, hvalue, -⟩ := (leadsTo_iff rfl).mp h
  have hlink : (Serializers.runUrl request Routes.FLOW runId).toList
      = request.urlPrefix.toList ++ '/' :: ("api/v1/flows".toList ++ '/' :: runId.toList) := by
    have hendpoint : Endpoint.getFlow.ofRun? = some "" := rfl
    have hurl : Serializers.runUrl request Routes.FLOW runId
        = request.urlPrefix ++ formatTemplate Endpoint.getFlow.template fun _ => runId := rfl
    rw [hurl, String.toList_append, toList_formatTemplate hendpoint]
    simp [beforeRunId, Routes.FLOWS]
  have hle : runId.toList.length ≤ text.length := by
    rw [← hvalue]
    exact (List.takeWhile_prefix _).length_le
  rw [hlink] at hpath
  have hlength : (pathOf ('/' :: ("api/v1/flows".toList ++ '/' :: runId.toList))).length
      ≤ (beforeRunId ++ text).length := by
    refine (length_pathOf_le _).trans ?_
    simp [beforeRunId, Routes.FLOWS]
    omega
  obtain ⟨hpre, hrest⟩ :=
    eq_of_unquote_pathOf_append (by decide) rfl (by decide) (by decide) hpath hlength
  refine ⟨hpre, plain_iff_length_le.mpr ?_⟩
  -- what is left of the id is all that follows the table's part of the path
  have hrun : pathOf ("api/v1/flows".toList ++ '/' :: runId.toList)
      = "api/v1/flows".toList ++ '/' :: pathOf runId.toList := by
    exact pathOf_append (s := "api/v1/flows/".toList) (by decide) (by decide) runId.toList
  rw [hrun, unquote_append (by decide) rfl] at hrest
  have htext : beforeRunId ++ text = beforeRunId ++ unquote (pathOf runId.toList) := hrest
  rwa [← List.append_cancel_left htext]

/-- **The links of a run lead back to it exactly when nothing in its id and in the prefix has a
meaning in URLs.** -/
theorem links_lead_back_iff {request : MeterRequest} {runId : String} (hne : runId ≠ "")
    (hslash : '/' ∉ runId.toList) :
    LeadsBack request runId ↔ Plain request.urlPrefix.toList ∧ Plain runId.toList := by
  constructor
  · intro h
    refine plain_of_leadsTo (h _ _ (.flow { runId := runId } rfl false false) "self" _ ?_)
    exact (Serializers.link_flow_self_atoms _ _ _ _).1
  · rintro ⟨hpre, hrun⟩ endpoint payload hpayload name link hlink
    cases hpayload with
    | flow snapshot hsnapshot withAtoms withEvents =>
      obtain ⟨rfl, rest, hendpoint⟩ := Serializers.link_flow hlink
      obtain ⟨shown, htext, hshown⟩ := toList_runUrl hendpoint request snapshot.runId []
      rw [hsnapshot] at htext ⊢
      exact leadsTo_of_plain hendpoint hpre hrun hne hslash (Or.inl rfl) hshown htext
    | events page =>
      obtain ⟨hname, query, rfl⟩ := Serializers.link_eventPage hlink
      have hendpoint : Endpoint.getEvents.ofRun? = some "/events" := rfl
      obtain ⟨shown, htext, hshown⟩ := toList_runUrl hendpoint request runId query
      rw [hname]
      exact leadsTo_of_plain hendpoint hpre hrun hne hslash (Or.inl rfl) hshown htext
    | atoms service payload hpath hatoms =>
      have hendpoint : Endpoint.getAtoms.ofRun? = some "/atoms" := rfl
      obtain ⟨hname, rfl⟩ := link_getAtoms hatoms hlink
      obtain ⟨text, htext, -, hvalue, hlast⟩ := (isFor_matchPath_iff hendpoint).mp hpath
      rw [hname]
      have hend := hlast.imp_right fun h => And.intro h (by decide : "/atoms" ≠ "")
      refine leadsTo_of_plain hendpoint hpre hrun hne hslash hend
        (Or.inl rfl : ([] : List Char) = [] ∨ _) ?_
      have hurl : request.url request.path = request.urlPrefix ++ request.path := rfl
      rw [hurl, String.toList_append, htext, List.append_nil, runPath, ← hvalue,
        List.takeWhile_append_dropWhile]

/-- A link to the flow `a#b` leads to the flow `a`. -/
theorem hash_leads_elsewhere :
    ¬LeadsBack {} "a#b"
      ∧ LeadsTo "" (Serializers.runUrl {} Routes.FLOW "a#b") .getFlow "a" := by
  constructor
  · intro h
    have hself := h _ _ (.flow { runId := "a#b" } rfl false false) "self" _
      (Serializers.link_flow_self_atoms _ _ _ _).1
    exact absurd (plain_of_leadsTo hself).2.1 (by decide)
  · exact (leadsTo_iff (rfl : Endpoint.getFlow.ofRun? = some "")).mpr
      ⟨['a'], by decide +kernel, by decide, by decide, Or.inl (by decide)⟩

theorem links_lead_back_mounted : LeadsBack { urlPrefix := "/meter" } "run-1" :=
  (links_lead_back_iff (by decide) (by decide)).mpr ⟨by decide, by decide⟩

end TaskflowMeter
