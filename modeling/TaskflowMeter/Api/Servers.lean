import TaskflowMeter.Api.Http

/-!
# The two servers

An ASGI and a WSGI server hand over the same request, each in its own way, and a builder makes a
request of our own of what it is given.

## Main definitions

* `HttpRequest` — what a client sends.
* `HttpRequest.scope`, `HttpRequest.environ` — what the two servers hand over.
* `Asgi.buildRequest`, `Wsgi.buildRequest` — the two builders.
* `MeterRequest.Agree` — two requests are the same to whoever looks things up in them.

## Main results

* `Hyphenated.requestHeaders_environ` — the headers that come back from an environ.
* `agree_iff` — **the two builders agree exactly on ASCII paths and headers without underscores.**
-/

namespace TaskflowMeter

open Utf8 Url

/-! ### What is handed over -/

/-- What an ASGI server hands over. -/
structure Scope where
  method : String := "GET"
  path : String := "/"
  rootPath : String := ""
  queryString : List UInt8 := []
  headers : List (List UInt8 × List UInt8) := []

/-- What a WSGI server hands over. -/
abbrev Environ := Dict String String

def lower (text : List Char) : List Char := text.map Char.toLower

/-- The name of a header, in lower case. -/
def lowerName (name : List UInt8) : String := String.ofList (lower (latin1 name))

/-- What a client sends: the path is percent-encoded, under a prefix that is too. -/
structure HttpRequest where
  method : String := "GET"
  mount : String := ""
  path : String
  query : List UInt8 := []
  headers : List (List UInt8 × List UInt8) := []
  absolute : (mount ++ path).toList.head? = some '/'
  boundary : path = "" ∨ path.toList.head? = some '/'
  ascii : ∀ h ∈ headers, ∀ b ∈ h.1, b < 0x80
  distinct : (headers.map fun h => lowerName h.1).Nodup

namespace HttpRequest

def mountBytes (r : HttpRequest) : List UInt8 := unquoteToBytes 0 r.mount.toList

def pathBytes (r : HttpRequest) : List UInt8 := unquoteToBytes 0 r.path.toList

/-- The path as UTF-8. -/
def scope (r : HttpRequest) : Scope where
  method := r.method
  path := String.ofList (decode (unquoteToBytes 0 (r.mount ++ r.path).toList))
  rootPath := String.ofList (decode r.mountBytes)
  queryString := r.query
  headers := r.headers

/-- The CGI name of a header. -/
def cgiChar (c : Char) : Char := if c = '-' then '_' else c.toUpper

def cgiName (name : List Char) : String :=
  let key := name.map cgiChar
  if key = "CONTENT_TYPE".toList ∨ key = "CONTENT_LENGTH".toList then String.ofList key
  else String.ofList ("HTTP_".toList ++ key)

def cgiKey (name : List UInt8) : String := cgiName (latin1 name)

/-- The path as latin-1. -/
def environ (r : HttpRequest) : Environ :=
  (r.headers.map fun h => (cgiKey h.1, String.ofList (latin1 h.2))).foldl
    (fun environ p => environ.set p.1 p.2)
    ⟨[("REQUEST_METHOD", r.method), ("SCRIPT_NAME", String.ofList (latin1 r.mountBytes)),
      ("PATH_INFO", String.ofList (latin1 r.pathBytes)),
      ("QUERY_STRING", String.ofList (latin1 r.query))], by simp⟩

end HttpRequest

/-! ### The builders -/

namespace Asgi

def PREFIX_HEADER : String := "x-forwarded-prefix"

def decodeHeaders (raw : List (List UInt8 × List UInt8)) : Dict String String :=
  (raw.map fun h => (lowerName h.1, String.ofList (latin1 h.2))).foldl
    (fun headers p => headers.set p.1 p.2) ∅

/-- Turn an ASGI scope into a request. -/
def buildRequest (scope : Scope) : MeterRequest :=
  let headers := decodeHeaders scope.headers
  .fromQueryString (String.ofList (latin1 scope.queryString))
    { method := scope.method
      path := splitPath scope.path scope.rootPath
      urlPrefix := headers.getD PREFIX_HEADER "" ++ scope.rootPath
      headers := headers }

end Asgi

namespace Wsgi

def PREFIX_HEADER : String := "HTTP_X_FORWARDED_PREFIX"

def nameChar (c : Char) : Char := (if c = '_' then '-' else c).toLower

/-- The name of a header, of a key that has one. -/
def headerName? (key : String) : Option String :=
  (key.toList.dropPrefix? "HTTP_".toList).map fun name => String.ofList (name.map nameChar)

/-- Recover header names from the keys of an environ. -/
def requestHeaders (environ : Environ) : Dict String String :=
  let headers := (environ.entries.filterMap fun p => (headerName? p.1).map fun name =>
    (name, p.2)).foldl
    (fun headers p => headers.set p.1 p.2) ∅
  [("CONTENT_TYPE", "content-type"), ("CONTENT_LENGTH", "content-length")].foldl
    (fun headers p =>
      match environ.get? p.1 with
      | some value => headers.set p.2 value
      | none => headers) headers

/-- Turn a WSGI environ into a request. -/
def buildRequest (environ : Environ) : MeterRequest :=
  let scriptName := environ.getD "SCRIPT_NAME" ""
  let path := environ.getD "PATH_INFO" ""
  .fromQueryString (environ.getD "QUERY_STRING" "")
    { method := environ.getD "REQUEST_METHOD" "GET"
      path := if path = "" then "/" else path
      urlPrefix := environ.getD PREFIX_HEADER "" ++ scriptName
      headers := requestHeaders environ }

end Wsgi

/-- Two requests are the same; dictionaries are compared without regard to their order. -/
def MeterRequest.Agree (a b : MeterRequest) : Prop :=
  a.method = b.method ∧ a.path = b.path ∧ a.urlPrefix = b.urlPrefix
    ∧ (∀ name, a.query.get? name = b.query.get? name)
    ∧ (∀ name, a.headers.get? name = b.headers.get? name) ∧ a.maxStrDigits = b.maxStrDigits

/-! ### Names of headers -/

open HttpRequest Wsgi

theorem forall_ascii {P : Char → Prop} (h : ∀ n < 128, P (Char.ofNat n)) {c : Char}
    (hc : c.toNat < 128) : P c := by
  have hchar := h c.toNat hc
  rwa [Char.ofNat_toNat] at hchar

/-- A character of a name comes back in lower case. -/
theorem nameChar_cgiChar {c : Char} (hc : c.toNat < 128) :
    c ≠ '_' → nameChar (cgiChar c) = c.toLower :=
  forall_ascii (P := fun c => c ≠ '_' → nameChar (cgiChar c) = c.toLower) (by decide) hc

theorem cgiChar_toLower {c : Char} (hc : c.toNat < 128) : cgiChar c.toLower = cgiChar c :=
  forall_ascii (P := fun c => cgiChar c.toLower = cgiChar c) (by decide) hc

theorem toLower_ne {c : Char} (h : c ≠ '_') : c.toLower ≠ '_' := by
  intro heq
  rw [Char.toLower] at heq
  split at heq
  · next hupper =>
    -- there is no letter below the underscore
    have hval := congrArg (fun c : Char => c.val.toNat) heq
    have hge := UInt32.le_iff_toNat_le.mp hupper.1
    have hle := UInt32.le_iff_toNat_le.mp hupper.2
    simp only [UInt32.toNat_add] at hval
    have h65 : ('A').val.toNat = 65 := rfl
    have h90 : ('Z').val.toNat = 90 := rfl
    have h32 : (('a').val - ('A').val).toNat = 32 := rfl
    have h95 : ('_').val.toNat = 95 := rfl
    omega
  · exact h heq

/-- No underscore comes back. -/
theorem nameChar_ne (c : Char) : nameChar c ≠ '_' := by
  unfold nameChar
  by_cases hc : c = '_'
  · rw [if_pos hc]
    decide
  · rw [if_neg hc]
    exact toLower_ne hc

/-- A name of ASCII characters. -/
def IsAscii (name : List UInt8) : Prop := ∀ b ∈ name, b < 0x80

theorem toNat_lt_of_mem_latin1 {name : List UInt8} (h : IsAscii name) {c : Char}
    (hc : c ∈ latin1 name) : c.toNat < 128 := by
  obtain ⟨b, hb, rfl⟩ := List.mem_map.mp hc
  rw [toNat_ofNat_toNat]
  exact UInt8.lt_iff_toNat_lt.mp (h b hb)

/-- A name without underscores comes back in lower case. -/
theorem map_nameChar_cgi {name : List UInt8} (hascii : IsAscii name) (h : '_' ∉ latin1 name) :
    ((latin1 name).map cgiChar).map nameChar = lower (latin1 name) := by
  rw [List.map_map]
  refine List.map_congr_left fun c hc => ?_
  exact nameChar_cgiChar (toNat_lt_of_mem_latin1 hascii hc) fun heq => h (heq ▸ hc)

/-- The key of a name can be told from the name in lower case. -/
theorem cgiName_lowerName {name : List UInt8} (hascii : IsAscii name) :
    cgiName (lowerName name).toList = cgiKey name := by
  have hmap : (lowerName name).toList.map cgiChar = (latin1 name).map cgiChar := by
    rw [lowerName, String.toList_ofList, lower, List.map_map]
    exact List.map_congr_left fun c hc => cgiChar_toLower (toNat_lt_of_mem_latin1 hascii hc)
  rw [cgiKey, cgiName, cgiName, hmap]

/-- What is made of a key, with or without the prefix. -/
def nameOfKey (key : String) : String :=
  (headerName? key).getD (String.ofList (key.toList.map nameChar))

theorem headerName?_append (name : List Char) :
    headerName? (String.ofList ("HTTP_".toList ++ name))
      = some (String.ofList (name.map nameChar)) := by
  rw [headerName?, String.toList_ofList, dropPrefix?_append]
  rfl

/-- **The name comes back from its key.** -/
theorem nameOfKey_cgiKey {name : List UInt8} (hascii : IsAscii name) (h : '_' ∉ latin1 name) :
    nameOfKey (cgiKey name) = lowerName name := by
  have hname : String.ofList (((latin1 name).map cgiChar).map nameChar) = lowerName name := by
    rw [map_nameChar_cgi hascii h]
    rfl
  rw [cgiKey, cgiName, nameOfKey]
  split
  · next hkey =>
    have hnone : headerName? (String.ofList ((latin1 name).map cgiChar)) = none := by
      rcases hkey with hkey | hkey <;> rw [hkey] <;> decide
    rw [hnone, Option.getD_none, String.toList_ofList, hname]
  · rw [headerName?_append, Option.getD_some, hname]

theorem cgiKey_eq_iff {name : List UInt8} (hascii : IsAscii name) (h : '_' ∉ latin1 name)
    {n : String}
    (hn : nameOfKey (cgiName n.toList) = n) : cgiKey name = cgiName n.toList
      ↔ lowerName name = n := by
  constructor
  · intro heq
    rw [← nameOfKey_cgiKey hascii h, heq, hn]
  · rintro rfl
    exact (cgiName_lowerName hascii).symm

/-- What the key of a header begins with. -/
theorem head?_cgiKey (name : List UInt8) :
    (cgiKey name).toList.head? = some 'C' ∨ (cgiKey name).toList.head? = some 'H' := by
  rw [cgiKey, cgiName]
  split
  · next hkey =>
    left
    rcases hkey with hkey | hkey <;> rw [hkey] <;> decide
  · right
    rw [String.toList_ofList]
    rfl

/-- The two headers that lose the prefix of their keys. -/
def isContent (name : String) : Bool := name = "content-type" || name = "content-length"

theorem headerName?_cgiKey {name : List UInt8} (hascii : IsAscii name) (h : '_' ∉ latin1 name) :
    headerName? (cgiKey name)
      = if isContent (lowerName name) then none else some (lowerName name) := by
  have htype : cgiKey name = "CONTENT_TYPE" ↔ lowerName name = "content-type" :=
    cgiKey_eq_iff hascii h (n := "content-type") (by decide)
  have hlength : cgiKey name = "CONTENT_LENGTH" ↔ lowerName name = "content-length" :=
    cgiKey_eq_iff hascii h (n := "content-length") (by decide)
  have hback := nameOfKey_cgiKey hascii h
  by_cases hcontent : isContent (lowerName name)
  · rw [if_pos hcontent]
    rw [isContent, Bool.or_eq_true, decide_eq_true_eq, decide_eq_true_eq, ← htype,
      ← hlength] at hcontent
    rcases hcontent with hkey | hkey <;> rw [hkey] <;> decide
  · rw [if_neg hcontent]
    rw [isContent, Bool.or_eq_true, decide_eq_true_eq, decide_eq_true_eq, ← htype,
      ← hlength] at hcontent
    rw [cgiKey, cgiName] at hcontent hback ⊢
    split at hcontent
    · next hkey =>
      exact absurd (hkey.imp (congrArg String.ofList) (congrArg String.ofList)) hcontent
    · next hkey =>
      rw [if_neg hkey] at hback ⊢
      rw [nameOfKey, headerName?_append, Option.getD_some] at hback
      rw [headerName?_append, hback]

/-! ### What comes back -/

namespace HttpRequest

/-- The headers of a request, under their names in lower case. -/
def pairs (r : HttpRequest) : List (String × String) :=
  r.headers.map fun h => (lowerName h.1, String.ofList (latin1 h.2))

/-- No name has an underscore. -/
def Hyphenated (r : HttpRequest) : Prop := ∀ h ∈ r.headers, '_' ∉ latin1 h.1

theorem nodup_pairs (r : HttpRequest) : (r.pairs.map Prod.fst).Nodup := by
  rw [pairs, List.map_map]
  exact r.distinct

theorem entries_decodeHeaders (r : HttpRequest) :
    (Asgi.decodeHeaders r.headers).entries = r.pairs := by
  rw [Asgi.decodeHeaders, ← pairs, Dict.entries_foldl_set r.nodup_pairs (by simp)]
  rfl

theorem get?_decodeHeaders (r : HttpRequest) {name value : String} :
    (Asgi.decodeHeaders r.headers).get? name = some value ↔ (name, value) ∈ r.pairs := by
  rw [Dict.get?_eq_some_iff, entries_decodeHeaders]

/-- What an environ holds beside the headers. -/
def base (r : HttpRequest) : List (String × String) :=
  [("REQUEST_METHOD", r.method), ("SCRIPT_NAME", String.ofList (latin1 r.mountBytes)),
    ("PATH_INFO", String.ofList (latin1 r.pathBytes)),
      ("QUERY_STRING", String.ofList (latin1 r.query))]

variable {r : HttpRequest}

/-- No header has a key of the rest. -/
theorem cgiKey_notMem_base (name : List UInt8) : cgiKey name ∉ r.base.map Prod.fst := by
  have hhead := head?_cgiKey name
  show cgiKey name ∉ ["REQUEST_METHOD", "SCRIPT_NAME", "PATH_INFO", "QUERY_STRING"]
  simp only [List.mem_cons, List.not_mem_nil, or_false, not_or]
  refine ⟨?_, ?_, ?_, ?_⟩ <;> intro heq <;> rw [heq] at hhead <;> revert hhead <;> decide

theorem getD_environ {key value : String} (h : (key, value) ∈ r.base) (default : String) :
    r.environ.getD key default = value := by
  have hget : r.environ.get? key = some value := by
    rw [environ, Dict.get?_foldl_set_of_notMem]
    · exact Dict.get?_eq_some_iff.mpr h
    · rw [List.map_map]
      intro hmem
      obtain ⟨p, -, hp⟩ := List.mem_map.mp hmem
      exact cgiKey_notMem_base p.1 (hp ▸ List.mem_map_of_mem h)
  rw [Dict.getD, hget, Option.getD_some]

theorem scriptName_environ (r : HttpRequest) :
    r.environ.getD "SCRIPT_NAME" "" = String.ofList (latin1 r.mountBytes) :=
  getD_environ (by simp [base]) ""

theorem pathInfo_environ (r : HttpRequest) :
    r.environ.getD "PATH_INFO" "" = String.ofList (latin1 r.pathBytes) :=
  getD_environ (by simp [base]) ""

/-- The keys of the headers differ where no name has an underscore. -/
theorem Hyphenated.entries_environ (hr : r.Hyphenated) :
    r.environ.entries
      = r.base ++ r.headers.map fun h => (cgiKey h.1, String.ofList (latin1 h.2)) := by
  unfold environ
  refine Dict.entries_foldl_set ?_ ?_
  · apply List.Nodup.of_map nameOfKey
    have hnames : (r.headers.map fun h => nameOfKey (cgiKey h.1))
        = r.headers.map fun h => lowerName h.1 :=
      List.map_congr_left fun h hh => nameOfKey_cgiKey (r.ascii h hh) (hr h hh)
    rw [List.map_map, List.map_map]
    exact hnames.symm ▸ r.distinct
  · intro p hp
    obtain ⟨h, -, rfl⟩ := List.mem_map.mp hp
    exact cgiKey_notMem_base h.1

/-- A header is found under its key. -/
theorem Hyphenated.get?_environ (hr : r.Hyphenated) {n : String}
    (hname : nameOfKey (cgiName n.toList) = n) (hbase : cgiName n.toList ∉ r.base.map Prod.fst) :
    r.environ.get? (cgiName n.toList) = (Asgi.decodeHeaders r.headers).get? n := by
  ext value
  rw [Dict.get?_eq_some_iff, hr.entries_environ, get?_decodeHeaders, pairs, List.mem_append,
    List.mem_map, List.mem_map]
  constructor
  · rintro (h | ⟨h, hh, heq⟩)
    · exact absurd (List.mem_map_of_mem h) hbase
    · obtain ⟨hkey, hvalue⟩ := Prod.mk.inj heq
      rw [cgiKey_eq_iff (r.ascii h hh) (hr h hh) hname] at hkey
      exact ⟨h, hh, Prod.ext hkey hvalue⟩
  · rintro ⟨h, hh, heq⟩
    obtain ⟨hkey, hvalue⟩ := Prod.mk.inj heq
    rw [← cgiKey_eq_iff (r.ascii h hh) (hr h hh) hname] at hkey
    exact Or.inr ⟨h, hh, Prod.ext hkey hvalue⟩

/-- All headers but two have keys with the prefix. -/
theorem Hyphenated.filterMap_environ (hr : r.Hyphenated) :
    (r.environ.entries.filterMap fun p => (headerName? p.1).map fun name => (name, p.2))
      = r.pairs.filter fun p => !isContent p.1 := by
  have hbase : (r.base.filterMap fun p => (headerName? p.1).map fun name => (name, p.2)) = [] := by
    rw [List.filterMap_eq_nil_iff]
    intro p hp
    have hnone : headerName? p.1 = none := by
      simp only [base, List.mem_cons, List.not_mem_nil, or_false] at hp
      rcases hp with rfl | rfl | rfl | rfl <;> dsimp only <;> decide
    rw [hnone, Option.map_none]
  rw [hr.entries_environ, List.filterMap_append, hbase, List.nil_append, pairs, List.filterMap_map,
    ← List.filterMap_eq_filter, List.filterMap_map]
  refine List.filterMap_congr fun h hh => ?_
  rw [Function.comp_apply, Function.comp_apply, headerName?_cgiKey (r.ascii h hh) (hr h hh)]
  cases hcontent : isContent (lowerName h.1) <;> simp [Option.guard, hcontent]

theorem get?_match_set (d : Dict String String) (value? : Option String) (name n : String) :
    (match value? with
      | some value => d.set name value
      | none => d).get? n = if n = name then value?.or (d.get? n) else d.get? n := by
  cases value? with
  | none => simp
  | some value =>
    rw [Dict.get?_set]
    split <;> simp_all

/-- **The headers come back from an environ.** -/
theorem Hyphenated.requestHeaders_environ (hr : r.Hyphenated) (name : String) :
    (requestHeaders r.environ).get? name = (Asgi.decodeHeaders r.headers).get? name := by
  have htype : r.environ.get? "CONTENT_TYPE" = (Asgi.decodeHeaders r.headers).get? "content-type" :=
    hr.get?_environ (n := "content-type") (by decide)
      (show _ ∉ ["REQUEST_METHOD", "SCRIPT_NAME", "PATH_INFO", "QUERY_STRING"] by decide)
  have hlength :
      r.environ.get? "CONTENT_LENGTH" = (Asgi.decodeHeaders r.headers).get? "content-length" :=
    hr.get?_environ (n := "content-length") (by decide)
      (show _ ∉ ["REQUEST_METHOD", "SCRIPT_NAME", "PATH_INFO", "QUERY_STRING"] by decide)
  set inner : Dict String String :=
    (r.pairs.filter fun p => !isContent p.1).foldl
    (fun headers p => headers.set p.1 p.2) ∅ with hinner
  have hget : inner.get? name
      = if isContent name then none else (Asgi.decodeHeaders r.headers).get? name := by
    ext value
    have hnodup : ((r.pairs.filter fun p => !isContent p.1).map Prod.fst).Nodup :=
      r.nodup_pairs.sublist (List.filter_sublist.map Prod.fst)
    rw [Dict.get?_eq_some_iff, hinner, Dict.entries_foldl_set hnodup (by simp)]
    show (name, value) ∈ [] ++ _ ↔ _
    rw [List.nil_append, List.mem_filter]
    cases hcontent : isContent name <;> simp [get?_decodeHeaders]
  rw [requestHeaders, hr.filterMap_environ, ← hinner]
  rw [List.foldl_cons, List.foldl_cons, List.foldl_nil]
  dsimp only
  rw [get?_match_set, get?_match_set, htype, hlength, hget]
  by_cases hnlength : name = "content-length"
  · subst hnlength
    rw [if_pos rfl, if_neg (by decide), if_pos (by decide), Option.or_none]
  · rw [if_neg hnlength]
    by_cases hntype : name = "content-type"
    · subst hntype
      rw [if_pos rfl, if_pos (by decide), Option.or_none]
    · rw [if_neg hntype, if_neg (by simp [isContent, hntype, hnlength])]

/-- No name with an underscore comes back. -/
theorem notMem_of_mem_requestHeaders {environ : Environ} {name : String}
    (h : name ∈ (requestHeaders environ).keys) : '_' ∉ name.toList := by
  have hmatch : ∀ (d : Dict String String) (value? : Option String) (known : String),
      name ∈ (match value? with
        | some value => d.set known value
        | none => d).keys → name = known ∨ name ∈ d.keys := by
    intro d value? known hmem
    cases value? with
    | none => exact Or.inr hmem
    | some value => exact Dict.mem_keys_set.mp hmem
  rw [requestHeaders, List.foldl_cons, List.foldl_cons, List.foldl_nil] at h
  rcases hmatch _ _ _ h with rfl | h
  · decide
  rcases hmatch _ _ _ h with rfl | h
  · decide
  rw [Dict.mem_keys_foldl_set] at h
  rcases h with h | h
  · exact absurd h (by simp)
  obtain ⟨p, hp, rfl⟩ := List.mem_map.mp h
  obtain ⟨q, -, hq⟩ := List.mem_filterMap.mp hp
  obtain ⟨n, hn, rfl⟩ := Option.map_eq_some_iff.mp hq
  obtain ⟨front, -, rfl⟩ := Option.map_eq_some_iff.mp hn
  rw [String.toList_ofList]
  intro hmem
  obtain ⟨c, -, hc⟩ := List.mem_map.mp hmem
  exact nameChar_ne c hc

theorem hyphenated_of_headers
    (h : ∀ name, (Asgi.decodeHeaders r.headers).get? name = (requestHeaders r.environ).get? name) :
    r.Hyphenated := by
  intro p hp hmem
  have hget : (Asgi.decodeHeaders r.headers).get? (lowerName p.1)
      = some (String.ofList (latin1 p.2)) :=
    r.get?_decodeHeaders.mpr (List.mem_map.mpr ⟨p, hp, rfl⟩)
  rw [h] at hget
  apply notMem_of_mem_requestHeaders (Dict.mem_keys_of_get? hget)
  rw [lowerName, String.toList_ofList]
  exact List.mem_map.mpr ⟨'_', hmem, rfl⟩

theorem Hyphenated.forwarded (hr : r.Hyphenated) :
    r.environ.getD Wsgi.PREFIX_HEADER ""
      = (Asgi.decodeHeaders r.headers).getD Asgi.PREFIX_HEADER "" := by
  have hget : r.environ.get? Wsgi.PREFIX_HEADER
      = (Asgi.decodeHeaders r.headers).get? Asgi.PREFIX_HEADER :=
    hr.get?_environ (n := Asgi.PREFIX_HEADER) (by decide)
      (show _ ∉ ["REQUEST_METHOD", "SCRIPT_NAME", "PATH_INFO", "QUERY_STRING"] by decide)
  rw [Dict.getD, Dict.getD, hget]

/-! ### Paths -/

theorem unquoteToBytes_slash (text : List Char) :
    unquoteToBytes 0 ('/' :: text) = 0x2f :: unquoteToBytes 0 text := by
  rw [unquoteToBytes, escaped?_of_ne (by decide)]
  rfl

theorem exists_of_head? {text : String} (h : text.toList.head? = some '/') :
    ∃ rest, unquoteToBytes 0 text.toList = 0x2f :: rest := by
  obtain ⟨rest, hrest⟩ := List.head?_eq_some_iff.mp h
  exact ⟨_, hrest ▸ unquoteToBytes_slash rest⟩

/-- No escape reaches over the end of the mount. -/
theorem unquoteToBytes_mount_path (r : HttpRequest) :
    unquoteToBytes 0 (r.mount ++ r.path).toList = r.mountBytes ++ r.pathBytes := by
  rw [String.toList_append]
  rcases r.boundary with hpath | hpath
  · rw [pathBytes, hpath]
    simp [mountBytes, unquoteToBytes]
  · obtain ⟨rest, hrest⟩ := List.head?_eq_some_iff.mp hpath
    rw [pathBytes, hrest]
    exact unquoteToBytes_append (by decide) 0 _ rest (Nat.zero_le _)

/-- What is left where the mount is taken off. -/
theorem splitPath_scope (h : ∀ b ∈ r.mountBytes, b < 0x80) :
    splitPath r.scope.path r.scope.rootPath
      = if r.path = "" then "/" else String.ofList (decode r.pathBytes) := by
  have hmount := (decode_eq_latin1_iff r.mountBytes).mpr h
  have hpath : r.scope.path = r.scope.rootPath ++ String.ofList (decode r.pathBytes) := by
    show String.ofList _ = String.ofList _ ++ _
    rw [unquoteToBytes_mount_path, decode_append_of_lt h, hmount, String.ofList_append]
  rw [hpath, splitPath_append]
  rcases r.boundary with hempty | hslash
  · have hhead := r.absolute
    rw [hempty, String.append_empty] at hhead
    obtain ⟨rest, hrest⟩ := exists_of_head? hhead
    have hroot : r.scope.rootPath ≠ "" := by
      show String.ofList (decode r.mountBytes) ≠ ""
      rw [mountBytes, hrest, decode_cons_of_lt (by decide)]
      simp
    have hbytes : r.pathBytes = [] := by
      rw [pathBytes, hempty]
      rfl
    rw [if_pos hempty, hbytes, if_pos ⟨rfl, hroot⟩]
  · obtain ⟨rest, hrest⟩ := exists_of_head? hslash
    rw [pathBytes, hrest, decode_cons_of_lt (by decide), if_neg (by simp), if_neg]
    rintro hempty
    rw [hempty] at hslash
    cases hslash

theorem path_environ (r : HttpRequest) :
    (if String.ofList (latin1 r.pathBytes) = "" then "/" else String.ofList (latin1 r.pathBytes))
      = if r.path = "" then "/" else String.ofList (latin1 r.pathBytes) := by
  rcases r.boundary with hempty | hslash
  · have hbytes : r.pathBytes = [] := by
      rw [pathBytes, hempty]
      rfl
    rw [if_pos hempty, hbytes]
    rfl
  · obtain ⟨rest, hrest⟩ := exists_of_head? hslash
    rw [pathBytes, hrest, if_neg (by simp [latin1]), if_neg]
    rintro hempty
    rw [hempty] at hslash
    cases hslash

end HttpRequest

/-- **The two builders agree on a request exactly where its path is ASCII**, under an ASCII mount,
and no name of a header has an underscore. -/
theorem agree_iff (r : HttpRequest) :
    (Asgi.buildRequest r.scope).Agree (Wsgi.buildRequest r.environ)
      ↔ (∀ b ∈ r.mountBytes, b < 0x80) ∧ (∀ b ∈ r.pathBytes, b < 0x80)
        ∧ ∀ h ∈ r.headers, '_' ∉ latin1 h.1 := by
  have hasgi_path : (Asgi.buildRequest r.scope).path = splitPath r.scope.path r.scope.rootPath :=
    rfl
  have hasgi_mount : (Asgi.buildRequest r.scope).urlPrefix
      = (Asgi.decodeHeaders r.headers).getD Asgi.PREFIX_HEADER ""
        ++ String.ofList (decode r.mountBytes) := rfl
  constructor
  · rintro ⟨-, hpath, hpre, -, hheaders, -⟩
    have hr : r.Hyphenated := hyphenated_of_headers hheaders
    have hmount : decode r.mountBytes = latin1 r.mountBytes := by
      have hpre' : _ = r.environ.getD Wsgi.PREFIX_HEADER "" ++ r.environ.getD "SCRIPT_NAME" "" :=
        hpre
      rw [hasgi_mount, r.scriptName_environ, hr.forwarded] at hpre'
      have hlist := congrArg String.toList hpre'
      rw [String.toList_append, String.toList_append, String.toList_ofList,
        String.toList_ofList] at hlist
      exact List.append_cancel_left hlist
    have hascii := (decode_eq_latin1_iff r.mountBytes).mp hmount
    refine ⟨hascii, (decode_eq_latin1_iff r.pathBytes).mp ?_, hr⟩
    have hpath' : _ = if r.environ.getD "PATH_INFO" "" = "" then "/"
        else r.environ.getD "PATH_INFO" "" :=
      hpath
    rw [hasgi_path, splitPath_scope hascii, r.pathInfo_environ, path_environ] at hpath'
    by_cases hempty : r.path = ""
    · rw [pathBytes, hempty]
      rfl
    · rw [if_neg hempty, if_neg hempty] at hpath'
      exact String.ofList_injective hpath'
  · rintro ⟨hmount, hpath, hnames⟩
    have hr : r.Hyphenated := hnames
    have hdecode_mount := (decode_eq_latin1_iff r.mountBytes).mpr hmount
    have hdecode_path := (decode_eq_latin1_iff r.pathBytes).mpr hpath
    have hquery : r.environ.getD "QUERY_STRING" "" = String.ofList (latin1 r.query) :=
      getD_environ (by simp [base]) ""
    have hmethod : r.environ.getD "REQUEST_METHOD" "GET" = r.method :=
      getD_environ (by simp [base]) "GET"
    refine ⟨hmethod.symm, ?_, ?_, ?_, ?_, rfl⟩
    · show splitPath r.scope.path r.scope.rootPath
        = if r.environ.getD "PATH_INFO" "" = "" then "/" else r.environ.getD "PATH_INFO" ""
      rw [splitPath_scope hmount, r.pathInfo_environ, path_environ, hdecode_path]
    · show _ = r.environ.getD Wsgi.PREFIX_HEADER "" ++ r.environ.getD "SCRIPT_NAME" ""
      rw [hasgi_mount, hr.forwarded, r.scriptName_environ, hdecode_mount]
    · intro name
      show (parseQs (String.ofList (latin1 r.query))).get? name
        = (parseQs (r.environ.getD "QUERY_STRING" "")).get? name
      rw [hquery]
    · exact fun name => (hr.requestHeaders_environ name).symm

/-- A path with an accent. -/
def accented : HttpRequest where
  path := "/api/v1/flows/caf%C3%A9"
  absolute := by decide +kernel
  boundary := by decide +kernel
  ascii := by simp
  distinct := by simp

/-- **The accent is read twice.** -/
theorem accent_read_twice :
    (Asgi.buildRequest accented.scope).path = "/api/v1/flows/café"
      ∧ (Wsgi.buildRequest accented.environ).path = "/api/v1/flows/cafÃ©"
      ∧ ¬ (Asgi.buildRequest accented.scope).Agree (Wsgi.buildRequest accented.environ) := by
  have hasgi : (Asgi.buildRequest accented.scope).path = "/api/v1/flows/café" := by decide +kernel
  have hwsgi : (Wsgi.buildRequest accented.environ).path
      = "/api/v1/flows/cafÃ©" := by decide +kernel
  refine ⟨hasgi, hwsgi, fun h => ?_⟩
  have hpath := h.2.1
  rw [hasgi, hwsgi] at hpath
  exact absurd hpath (by decide +kernel)

end TaskflowMeter
