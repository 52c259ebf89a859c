import TaskflowMeter.Api.Links
import TaskflowMeter.Walk

/-!
# Following the pages of a listing

A client asks for flows, and then requests the link to the next page that each payload gives it,
until there is none.

## Main definitions

* `ListsFlows` — a reader with unchanged contents: its listings page over the flows.
* `Browsing`, `followed` — what a client has been given, and the link it goes on with.
* `FollowsAll` — a client is given the flows that it asked for, and stops.

## Main results

* `WritableDataSource.listsFlows` — a store that is left alone is such a reader.
* `followed_eq_ofWalk` — **following links is a walk over the listing without its filters**, after
  the first page.
* `followsAll_iff` — **a client is given what it asked for exactly when the first page is the only
  one, or nothing else is listed after it.**
-/

namespace TaskflowMeter

open Paging Url

/-- A reader with unchanged contents. -/
structure ListsFlows (reader : DataSource) (flows : List FlowSnapshot) : Prop where
  sorted : SortedBy listKey flows
  lists : ∀ filter limit, 1 ≤ limit →
    Lists (reader.listFlows filter limit) limit.toNat
      (flows.filter fun f => filter.admits f.state f.bookId)

/-- A store that is left alone pages over its flows. -/
theorem WritableDataSource.listsFlows (s : WritableDataSource) :
    ListsFlows s.toDataSource (s.listed {}) where
  sorted := sortedBy_listed
  lists := by
    intro filter limit hlimit
    have hlisted : (s.listed {}).filter (fun f => filter.admits f.state f.bookId)
        = s.listed filter := by
      refine SortedBy.eq_of_perm (List.Pairwise.filter _ sortedBy_listed) sortedBy_listed ?_
      rw [List.perm_ext_iff_of_nodup (List.Nodup.filter _ sortedBy_listed.nodup)
        sortedBy_listed.nodup]
      intro f
      rw [List.mem_filter, mem_listed, mem_listed]
      constructor
      · rintro ⟨⟨hf, -⟩, hadmits⟩
        exact ⟨hf, hadmits⟩
      · rintro ⟨hf, hadmits⟩
        exact ⟨⟨hf, rfl⟩, hadmits⟩
    rw [hlisted]
    exact s.lists_listFlows filter hlimit

/-! ### A client -/

/-- The flows of a payload. -/
def Json.flows (payload : Json) : List Json :=
  match payload.field? "flows" with
  | some (.arr items) => items
  | _ => []

/-- What a client has been given, and the link that it goes on with. -/
structure Browsing where
  next : Option String := none
  flows : List Json := []
  status : WalkStatus := .walking
  deriving DecidableEq

namespace Browsing

def read (flows : List Json) (payload : Json) : Browsing where
  next := payload.link? "next"
  flows := flows ++ payload.flows
  status := if (payload.link? "next").isSome then .walking else .finished

/-- The payload that a link gives, if it leads to the listing. -/
def fetch (service : MeterService) (urlPrefix link : String) : Option Json := do
  let request ← MeterRequest.ofLink urlPrefix link
  if (theRouter.matchPath "GET" request.path).route.map Route.handler = some .listFlows then
    (service.listFlows request).toOption
  else none

/-- Request the link. -/
def follow (service : MeterService) (urlPrefix : String) (s : Browsing) : Browsing :=
  match s.status, s.next with
  | .walking, some link =>
      match fetch service urlPrefix link with
      | some payload => read s.flows payload
      | none => { s with status := .failed }
  | _, _ => s

end Browsing

/-- What a client has been given after a number of links. -/
def followed (service : MeterService) (request : MeterRequest) : ℕ → Browsing
  | 0 =>
      match service.listFlows request with
      | .ok payload => Browsing.read [] payload
      | .error _ => { status := .failed }
  | n + 1 => (followed service request n).follow service request.urlPrefix

/-- The filters of a request. -/
def MeterRequest.filter (request : MeterRequest) : FlowFilter where
  state := request.get "state"
  bookId := request.get "book_id"

/-- The flows that match the filters of a request. -/
def matching (request : MeterRequest) (flows : List FlowSnapshot) : List FlowSnapshot :=
  flows.filter fun f => request.filter.admits f.state f.bookId

/-- A flow as it stands in a listing. -/
def listedFlow (service : MeterService) (request : MeterRequest) (f : FlowSnapshot) : Json :=
  Serializers.flow f request false service.meter.supportsEvents

/-- A client is given the flows that it asked for, in order, and stops. -/
def FollowsAll (service : MeterService) (request : MeterRequest) (flows : List FlowSnapshot) :
    Prop :=
  ∃ n, (followed service request n).status = .finished
    ∧ (followed service request n).flows
      = (matching request flows).map (listedFlow service request)

/-! ### One request -/

/-- The link to the next page. -/
def nextLink (urlPrefix marker : String) : String :=
  MeterRequest.url { urlPrefix := urlPrefix } Routes.FLOWS [("marker", some marker)]

/-- The request that it is. -/
def nextRequest (urlPrefix marker : String) : MeterRequest where
  path := Routes.FLOWS
  urlPrefix := urlPrefix
  query := (∅ : Dict String (List String)).set "marker" [marker]

/-- A walk as the client sees it. -/
def Browsing.ofWalk (service : MeterService) (request : MeterRequest) (walk : Walk) : Browsing where
  next := walk.marker.map (nextLink request.urlPrefix)
  flows := walk.flows.map (listedFlow service request)
  status := walk.status

/-- The links of a payload depend on the prefix only. -/
theorem listedFlow_congr (service : MeterService) {request request' : MeterRequest}
    (h : request'.urlPrefix = request.urlPrefix) :
    listedFlow service request' = listedFlow service request := by
  funext f
  simp only [listedFlow, Serializers.flow, Serializers.runUrl, MeterRequest.url, h]

/-- What a client reads from a page. -/
theorem Browsing.read_flowPage (service : MeterService) {request request' : MeterRequest}
    (h : request'.urlPrefix = request.urlPrefix) (flows : List FlowSnapshot) (page : FlowPage) :
    read (flows.map (listedFlow service request))
        (Serializers.flowPage page request' service.meter.supportsEvents)
      = ofWalk service request
        { marker := page.nextMarker
          flows := flows ++ page.items
          status := if page.hasMore then .walking else .finished } := by
  have hnext : (Serializers.flowPage page request' service.meter.supportsEvents).link? "next"
      = page.nextMarker.map (nextLink request.urlPrefix) := by
    rw [Serializers.link_flowPage]
    congr 1
    funext marker
    simp only [nextLink, MeterRequest.url, h]
  have hflows : (Serializers.flowPage page request' service.meter.supportsEvents).flows
      = page.items.map (listedFlow service request) := by
    rw [← listedFlow_congr service h]
    rfl
  rw [read, ofWalk, hnext, hflows, List.map_append, FlowPage.hasMore, Option.isSome_map]

/-- The payload of a listing, if there is one. -/
theorem toOption_listFlows {service : MeterService} {request : MeterRequest} {limit : ℤ}
    (hlimit : service.limit request DEFAULT_FLOW_LIMIT = .ok limit) :
    (service.listFlows request).toOption
      = (service.meter.listFlows request.filter limit
        (request.get "marker")).toOption.map fun page =>
        Serializers.flowPage page request service.meter.supportsEvents := by
  unfold MeterService.listFlows
  rw [hlimit]
  simp only [bind, Except.bind, MeterRequest.filter]
  generalize hfilter :
    ({ state := request.get "state", bookId := request.get "book_id" } : FlowFilter) = filter
  cases service.meter.listFlows filter limit (request.get "marker") with
  | ok page =>
    cases hmarker : page.nextMarker <;> simp [hmarker, pure, Except.pure, Except.toOption]
  | error e => cases e <;> rfl

theorem toList_nextLink (urlPrefix marker : String) :
    (nextLink urlPrefix marker).toList
      = urlPrefix.toList ++ Routes.FLOWS.toList
        ++ '?' :: (urlencode [("marker", marker)]).toList := by
  have hurl : nextLink urlPrefix marker
      = urlPrefix ++ Routes.FLOWS ++ "?" ++ urlencode [("marker", marker)] := rfl
  rw [hurl, String.toList_append, String.toList_append, String.toList_append, List.append_assoc]
  rfl

/-- **A link to the next page says nothing but the marker.** -/
theorem ofLink_nextLink {urlPrefix : String} (hpre : Plain urlPrefix.toList) (marker : String) :
    MeterRequest.ofLink urlPrefix (nextLink urlPrefix marker)
      = some (nextRequest urlPrefix marker) := by
  have hpath : Plain (urlPrefix.toList ++ Routes.FLOWS.toList) := by
    have hflows : Routes.FLOWS.toList = '/' :: "api/v1/flows".toList := by decide
    rw [hflows]
    refine hpre.append_cons ?_ ?_ ?_ ?_ ?_ <;> decide
  rw [ofLink_eq_some_iff]
  refine ⟨Routes.FLOWS.toList, ?_, ?_⟩
  · rw [toList_nextLink, hpath.unquote_pathOf (Or.inr rfl)]
  · rw [toList_nextLink, queryOf_append hpath (hash_notMem_urlencode _ _), String.ofList_toList,
      MeterRequest.fromQueryString, parseQs_urlencode_singleton]
    rfl

/-- The limit of a request that says none. -/
theorem limit_default {service : MeterService} {request : MeterRequest}
    (h : request.get "limit" = none) :
    service.limit request DEFAULT_FLOW_LIMIT = .ok (min DEFAULT_FLOW_LIMIT service.maxLimit) := by
  rw [MeterService.limit, MeterRequest.getInt_of_none h]
  rfl

/-- What the link to the next page gives. -/
theorem fetch_nextLink (service : MeterService) {urlPrefix : String}
    (hpre : Plain urlPrefix.toList) (marker : String) :
    Browsing.fetch service urlPrefix (nextLink urlPrefix marker)
      = (service.meter.listFlows {} (min DEFAULT_FLOW_LIMIT service.maxLimit)
          (some marker)).toOption.map fun page =>
        Serializers.flowPage page (nextRequest urlPrefix marker) service.meter.supportsEvents := by
  have hroute : (theRouter.matchPath "GET" (nextRequest urlPrefix marker).path).route.map
      Route.handler = some .listFlows :=
    handler_matchPath_eq_listFlows_iff.mpr (Or.inl rfl)
  have hlimit : service.limit (nextRequest urlPrefix marker) DEFAULT_FLOW_LIMIT = _ :=
    limit_default rfl
  rw [Browsing.fetch, ofLink_nextLink hpre]
  show (if _ then _ else _) = _
  rw [if_pos hroute, toOption_listFlows hlimit]
  rfl

/-- **A link under a prefix that is not plain does not lead to the listing.** -/
theorem fetch_nextLink_eq_none (service : MeterService) {urlPrefix : String}
    (hpre : ¬Plain urlPrefix.toList) (marker : String) :
    Browsing.fetch service urlPrefix (nextLink urlPrefix marker) = none := by
  rw [Browsing.fetch]
  cases hlink : MeterRequest.ofLink urlPrefix (nextLink urlPrefix marker) with
  | none => rfl
  | some request =>
    obtain ⟨rest, hrest, rfl⟩ := ofLink_eq_some_iff.mp hlink
    refine if_neg fun hroute => hpre ?_
    have hpath := handler_matchPath_eq_listFlows_iff.mp hroute
    -- the path of the listing stands after the prefix
    have hlength : Routes.FLOWS.toList.length ≤ rest.length := by
      change (if rest = [] ∧ urlPrefix ≠ "" then "/" else String.ofList rest).toList = _
        ∨ (if rest = [] ∧ urlPrefix ≠ "" then "/" else String.ofList rest).toList = _ at hpath
      split at hpath
      · rcases hpath with h | h <;> exact absurd h (by decide)
      · rw [String.toList_ofList] at hpath
        rcases hpath with rfl | rfl <;> simp
    have hflows : Routes.FLOWS.toList ++ '?' :: (urlencode [("marker", marker)]).toList
        = '/' :: ("api/v1/flows".toList ++ '?' :: (urlencode [("marker", marker)]).toList) := rfl
    rw [toList_nextLink, List.append_assoc, hflows] at hrest
    refine (eq_of_unquote_pathOf_append (by decide) rfl (by decide) (by decide) hrest ?_).1
    have hshown : pathOf (Routes.FLOWS.toList ++ '?' :: (urlencode [("marker", marker)]).toList)
        = Routes.FLOWS.toList := by
      rw [pathOf_append (by decide) (by decide), pathOf_eq]
      rfl
    rw [← hflows, hshown]
    exact hlength

/-! ### A walk of links -/

/-- The listings that a client is given pages of: the first with its filters, the others without. -/
def listings (service : MeterService) (request : MeterRequest) (limit : ℤ) :
    ℕ → Option String → Except ListError FlowPage
  | 0 => service.meter.listFlows request.filter limit
  | _ + 1 => service.meter.listFlows {} (min DEFAULT_FLOW_LIMIT service.maxLimit)

section

variable {service : MeterService} {request : MeterRequest} {flows : List FlowSnapshot} {limit : ℤ}

/-- The first page. -/
theorem followed_zero (hreader : ListsFlows service.meter.reader flows)
    (hmarker : request.get "marker" = none)
    (hlimit : service.limit request DEFAULT_FLOW_LIMIT = .ok limit) (hpos : 1 ≤ limit) :
    followed service request 0
      = .ofWalk service request (walkPages (listings service request limit) 1) := by
  have hpage : listings service request limit 0 none
      = .ok (pageOf limit.toNat (matching request flows)) :=
    (hreader.lists request.filter limit hpos).first
  have hfirst : (service.listFlows request).toOption = _ := toOption_listFlows hlimit
  have hlisted : service.meter.listFlows request.filter limit none = _ := hpage
  rw [hmarker, hlisted] at hfirst
  have hpayload : service.listFlows request = .ok (Serializers.flowPage
      (pageOf limit.toNat (matching request flows)) request service.meter.supportsEvents) := by
    cases hflows : service.listFlows request with
    | error e =>
      rw [hflows] at hfirst
      cases hfirst
    | ok payload =>
      rw [hflows] at hfirst
      exact congrArg Except.ok (Option.some.inj hfirst)
  rw [followed, hpayload]
  refine (Browsing.read_flowPage service rfl [] _).trans ?_
  rw [walkPages, Walk.turn_of_ok rfl hpage]
  rfl

/-- A walk that goes on has a marker to go on from. -/
theorem isSome_marker_turn {walk : Walk} {list : Option String → Except ListError FlowPage}
    (h : (walk.turn list).status = .walking) : (walk.turn list).marker.isSome = true := by
  by_cases hstatus : walk.status = .walking
  · cases hpage : list walk.marker with
    | error e =>
      rw [Walk.turn_of_error hstatus hpage] at h
      cases h
    | ok page =>
      rw [Walk.turn_of_ok hstatus hpage] at h ⊢
      change (if page.hasMore = true then WalkStatus.walking else WalkStatus.finished)
        = .walking at h
      by_contra hnone
      change ¬page.hasMore = true at hnone
      rw [if_neg hnone] at h
      cases h
  · rw [Walk.turn_of_ended hstatus] at h
    exact absurd h hstatus

/-- One link is one page. -/
theorem follow_ofWalk (hpre : Plain request.urlPrefix.toList) {walk : Walk}
    (hmarker : walk.status = .walking → walk.marker.isSome = true) :
    (Browsing.ofWalk service request walk).follow service request.urlPrefix
      = .ofWalk service request
        (walk.turn (service.meter.listFlows {} (min DEFAULT_FLOW_LIMIT service.maxLimit))) := by
  by_cases hstatus : walk.status = .walking
  · obtain ⟨marker, hsome⟩ := Option.isSome_iff_exists.mp (hmarker hstatus)
    have hfetch := fetch_nextLink service hpre marker
    rw [Browsing.follow, Browsing.ofWalk, hstatus, hsome]
    dsimp only [Option.map_some]
    rw [hfetch]
    cases hpage : service.meter.listFlows {} (min DEFAULT_FLOW_LIMIT service.maxLimit) (some marker) with
    | error e =>
      rw [Walk.turn_of_error hstatus (hsome ▸ hpage), hsome]
      rfl
    | ok page =>
      rw [Walk.turn_of_ok hstatus (hsome ▸ hpage)]
      exact Browsing.read_flowPage service rfl walk.flows page
  · rw [Walk.turn_of_ended hstatus, Browsing.follow]
    split
    · next h _ => exact absurd h hstatus
    · rfl

/-- **Following links is a walk**, over the listing without filters after the first page. -/
theorem followed_eq_ofWalk (hreader : ListsFlows service.meter.reader flows)
    (hmarker : request.get "marker" = none)
    (hlimit : service.limit request DEFAULT_FLOW_LIMIT = .ok limit) (hpos : 1 ≤ limit)
    (hpre : Plain request.urlPrefix.toList) (n : ℕ) :
    followed service request n
      = .ofWalk service request (walkPages (listings service request limit) (n + 1)) := by
  induction n with
  | zero => exact followed_zero hreader hmarker hlimit hpos
  | succ n ih =>
    rw [followed, ih]
    exact follow_ofWalk hpre isSome_marker_turn

/-- A client that a link gives nothing stops there. -/
theorem status_followed_of_not_plain (hpre : ¬Plain request.urlPrefix.toList) {marker : String}
    (hwalking : (followed service request 0).status = .walking)
    (hnext : (followed service request 0).next = some (nextLink request.urlPrefix marker)) (n : ℕ) :
    (followed service request n).status ≠ .finished := by
  have hfailed : (followed service request 1).status = .failed := by
    rw [followed, Browsing.follow, hwalking, hnext]
    dsimp only
    rw [fetch_nextLink_eq_none service hpre]
  have hend : ∀ n, (followed service request (n + 1)).status = .failed := by
    intro n
    induction n with
    | zero => exact hfailed
    | succ n ih =>
      rw [followed, Browsing.follow, ih]
      exact ih
  cases n with
  | zero => rw [hwalking]; nofun
  | succ n => rw [hend n]; nofun

/-- What a walk over the first page and then over the rest of the listing gives. -/
theorem exists_walkPages_listings (hreader : ListsFlows service.meter.reader flows)
    (hmax : 1 ≤ service.maxLimit) {b : FlowSnapshot} {page : List FlowSnapshot} (hb : b ∈ flows)
    (hfirst : walkPages (listings service request limit) 1
      = { marker := some b.runId, flows := page }) :
    ∃ n, walkPages (listings service request limit) (n + 1)
      = { flows := page ++ after listKey (listKey b) flows, status := .finished } := by
  have hlimit : 1 ≤ min DEFAULT_FLOW_LIMIT service.maxLimit := le_min (by decide) hmax
  have hall : flows.filter (fun f => ({} : FlowFilter).admits f.state f.bookId) = flows :=
    List.filter_eq_self.mpr fun f _ => rfl
  have hpos : 1 ≤ (min DEFAULT_FLOW_LIMIT service.maxLimit).toNat := by omega
  have hlists : ∀ j, 1 ≤ j → Lists (listings service request limit j)
      (min DEFAULT_FLOW_LIMIT service.maxLimit).toNat flows := by
    intro j hj
    obtain ⟨i, rfl⟩ := Nat.exists_eq_add_of_le' hj
    have hlists := hreader.lists {} _ hlimit
    rwa [hall] at hlists
  obtain ⟨m, hm⟩ := walkPages_of_lists hpos hreader.sorted hlists (.afterFlow b hb) hfirst
  cases m with
  | zero =>
    have hstatus : WalkStatus.walking = .finished := congrArg Walk.status hm
    cases hstatus
  | succ m => exact ⟨m, hm⟩

/-- What the first page leaves of the flows that match. -/
theorem matching_eq (hsorted : SortedBy listKey flows) {n : ℕ} {b : FlowSnapshot}
    (hb : ((matching request flows).take n).getLast? = some b) :
    matching request flows
      = (matching request flows).take n ++ matching request (after listKey (listKey b) flows) := by
  have hmatching : SortedBy listKey (matching request flows) := List.Pairwise.filter _ hsorted
  have hrest : (matching request flows).drop n
      = matching request (after listKey (listKey b) flows) := by
    rw [← after_getLast?_take hmatching hb, after, after, matching, matching, List.filter_filter,
      List.filter_filter]
    refine List.filter_congr fun f _ => ?_
    rw [Bool.and_comm]
  rw [← hrest, List.take_append_drop]

/-- After a first page that is not the last, a client is given the rest of the whole listing. -/
theorem followsAll_iff_matching (hreader : ListsFlows service.meter.reader flows)
    (hmarker : request.get "marker" = none)
    (hlimit : service.limit request DEFAULT_FLOW_LIMIT = .ok limit) (hpos : 1 ≤ limit)
    (hpre : Plain request.urlPrefix.toList) (hmax : 1 ≤ service.maxLimit) {b : FlowSnapshot}
    {page : List FlowSnapshot} (hb : b ∈ flows)
    (hfirst : walkPages (listings service request limit) 1
      = { marker := some b.runId, flows := page })
    (hsub : (matching request flows).Sublist (page ++ after listKey (listKey b) flows)) :
    FollowsAll service request flows
      ↔ page ++ after listKey (listKey b) flows = matching request flows := by
  obtain ⟨m, hm⟩ := exists_walkPages_listings hreader hmax hb hfirst
  have hfollowed := followed_eq_ofWalk hreader hmarker hlimit hpos hpre
  constructor
  · rintro ⟨n, hn, hflows⟩
    rw [hfollowed] at hn hflows
    have hn' : (walkPages (listings service request limit) (n + 1)).status ≠ .walking := by
      intro hwalking
      cases hwalking.symm.trans hn
    have hm' : (walkPages (listings service request limit) (m + 1)).status ≠ .walking := by
      rw [hm]
      nofun
    rw [walkPages_unique hn' hm', hm] at hflows
    have hlength := congrArg List.length hflows
    rw [List.length_map] at hlength
    exact (hsub.eq_of_length (hlength.symm.trans (List.length_map _))).symm
  · intro h
    refine ⟨m, ?_, ?_⟩
    · rw [hfollowed, hm]
      rfl
    · rw [hfollowed, hm, ← h]
      rfl

/-- **A client is given what it asked for exactly when the first page is the only one**, or nothing
that does not match is listed after it, under a plain prefix. -/
theorem followsAll_iff (hreader : ListsFlows service.meter.reader flows)
    (hmarker : request.get "marker" = none)
    (hlimit : service.limit request DEFAULT_FLOW_LIMIT = .ok limit) (hpos : 1 ≤ limit) :
    FollowsAll service request flows
      ↔ (matching request flows).length ≤ limit.toNat
        ∨ Plain request.urlPrefix.toList
          ∧ ∀ f ∈ flows, (∀ g ∈ (matching request flows).take limit.toNat, listKey g < listKey f) →
            request.filter.admits f.state f.bookId = true := by
  have hzero := followed_zero hreader hmarker hlimit hpos
  have hfirst : listings service request limit 0 none
      = .ok (pageOf limit.toNat (matching request flows)) :=
    (hreader.lists request.filter limit hpos).first
  have hturn : walkPages (listings service request limit) 1 = _ := Walk.turn_of_ok rfl hfirst
  by_cases hmore : (matching request flows).length ≤ limit.toNat
  · refine iff_of_true ⟨0, ?_⟩ (Or.inl hmore)
    rw [hzero, hturn, pageOf_of_le hmore]
    exact ⟨rfl, rfl⟩
  rw [or_iff_right hmore]
  have hmax : 1 ≤ service.maxLimit := by
    obtain ⟨asked, -, -, rfl⟩ := MeterService.limit_eq_ok hlimit
    exact hpos.trans (min_le_right _ _)
  obtain ⟨b, hb, hpage⟩ := pageOf_of_lt (by omega) (not_le.mp hmore)
  rw [hpage] at hturn
  have hmem : b ∈ (matching request flows).take limit.toNat := List.mem_of_getLast? hb
  have hflows : b ∈ flows := List.mem_of_mem_filter (List.mem_of_mem_take hmem)
  by_cases hpre : Plain request.urlPrefix.toList
  · have hwalk : walkPages (listings service request limit) 1
        = { marker := some b.runId, flows := (matching request flows).take limit.toNat } := hturn
    have hmatching : matching request flows = _ := matching_eq hreader.sorted hb
    have hsub : (matching request flows).Sublist
        ((matching request flows).take limit.toNat ++ after listKey (listKey b) flows) := by
      conv_lhs => rw [hmatching]
      exact List.Sublist.append_left List.filter_sublist _
    rw [and_iff_right hpre,
      followsAll_iff_matching hreader hmarker hlimit hpos hpre hmax hflows hwalk hsub]
    constructor
    · intro h f hf hlt
      have hrest := List.append_cancel_left (h.trans hmatching)
      have hall := List.filter_eq_self.mp hrest.symm
      exact hall f (mem_after.mpr ⟨hf, hlt b hmem⟩)
    · intro h
      have hself : matching request (after listKey (listKey b) flows)
          = after listKey (listKey b) flows := by
        refine List.filter_eq_self.mpr fun f hf => ?_
        obtain ⟨hf, hlt⟩ := mem_after.mp hf
        refine h f hf fun g hg => ?_
        have hsorted : SortedBy listKey (matching request flows) :=
          List.Pairwise.filter _ hreader.sorted
        exact ((mem_take_iff hsorted hb (List.mem_of_mem_take hg)).mp hg).trans_lt hlt
      rw [hself] at hmatching
      exact hmatching.symm
  · refine iff_of_false ?_ (fun h => hpre h.1)
    rintro ⟨n, hn, -⟩
    rw [hturn] at hzero
    exact status_followed_of_not_plain hpre (congrArg Browsing.status hzero)
      (congrArg Browsing.next hzero) n hn

end

/-! ### A filter that is lost -/

/-- Three runs observed at one instant; the second has finished. -/
def threeStates : List Event :=
  [("a", "RUNNING"), ("b", "SUCCESS"), ("c", "RUNNING")].map fun p =>
    { runId := p.1, seq := 1, ts := 0, kind := .flowState, state := some p.2 }

def threeStore : WritableDataSource := (WritableDataSource.memory noRuns).applyMany threeStates

def threeService : MeterService where
  meter := { source := threeStore.toDataSource }

/-- A request for the listing. -/
def listingRequest (query : String) : MeterRequest :=
  .fromQueryString query { path := Routes.FLOWS }

/-- A client that asks for running flows, one to a page, is given all three. -/
theorem filter_lost :
    ¬FollowsAll threeService (listingRequest "state=RUNNING&limit=1") (threeStore.listed {}) := by
  rintro ⟨n, hn, hflows⟩
  have hone : (followed threeService (listingRequest "state=RUNNING&limit=1") 1).status = .finished
      ∧ (followed threeService (listingRequest "state=RUNNING&limit=1") 1).flows.length = 3 := by
    decide +kernel
  have hend : ∀ n, followed threeService (listingRequest "state=RUNNING&limit=1") (n + 1)
      = followed threeService (listingRequest "state=RUNNING&limit=1") 1 := by
    intro n
    induction n with
    | zero => rfl
    | succ n ih => rw [followed, ih, Browsing.follow, hone.1]
  cases n with
  | zero => exact absurd hn (by decide +kernel)
  | succ n =>
    have hlength := congrArg List.length hflows
    rw [hend, hone.2, List.length_map] at hlength
    exact absurd hlength (by decide +kernel)

/-- Without a filter all three are asked for. -/
theorem followsAll_without_filter :
    FollowsAll threeService (listingRequest "limit=1") (threeStore.listed {}) := by
  have hreader : ListsFlows threeService.meter.reader (threeStore.listed {}) :=
    threeStore.listsFlows
  have hlimit : threeService.limit (listingRequest "limit=1") DEFAULT_FLOW_LIMIT = .ok 1 := rfl
  exact (followsAll_iff hreader rfl hlimit le_rfl).mpr (Or.inr ⟨by decide, fun _ _ _ => rfl⟩)

end TaskflowMeter
