import TaskflowMeter.Json
import TaskflowMeter.Lib.Dict
import TaskflowMeter.Lib.PyInt
import TaskflowMeter.Lib.Url

/-!
# Requests, and what handlers raise

## Main definitions

* `ApiError`, `Raised` — an error with an HTTP shape, and all that a handler may raise.
* `splitPath`, `mountPrefix` — a path and the prefix of a mount.
* `MeterRequest` — one inbound request.
* `MeterRequest.get`, `MeterRequest.getInt` — a query parameter, and an integer in it.
* `MeterRequest.url` — a link back into the application.
* `MeterResponse` — a response, of a payload or of an error.

## Main results

* `splitPath_append`, `mountPrefix_append` — **a path is told from its prefix.**
* `routesAlike_iff` — **when every convention for a mount prefix is served.**
* `parseQs_urlencode_singleton` — the parameter of a link reads back.
-/

namespace TaskflowMeter

/-- The classes of `ApiError`. -/
inductive ApiErrorClass where
  | badRequest
  | notFound
  | methodNotAllowed
  /-- The datasource in use cannot answer this at all. -/
  | unsupported
  deriving DecidableEq, Repr

namespace ApiErrorClass

def status : ApiErrorClass → ℕ
  | badRequest => 400
  | notFound => 404
  | methodNotAllowed => 405
  | unsupported => 501

def title : ApiErrorClass → String
  | badRequest => "Bad Request"
  | notFound => "Not Found"
  | methodNotAllowed => "Method Not Allowed"
  | unsupported => "Not Implemented"

end ApiErrorClass

/-- An error with an HTTP shape. -/
structure ApiError where
  kind : ApiErrorClass
  detail : String
  headers : List (String × String) := []
  deriving DecidableEq, Repr

/-- What a handler raises: an error of its own, or one that is none of its business. -/
inductive Raised where
  | api (error : ApiError)
  | lookupError (message : String)
  | valueError (message : String)
  /-- A text that UTF-8 has no form for. -/
  | unicodeEncodeError (text : String)
  deriving DecidableEq, Repr

def badRequest (detail : String) : Raised := .api { kind := .badRequest, detail := detail }

def notFound (detail : String) : Raised := .api { kind := .notFound, detail := detail }

def unsupported (detail : String) : Raised := .api { kind := .unsupported, detail := detail }

/-! ### Paths -/

/-- The path to route on, given a mount prefix. -/
def splitPath (path rootPath : String) : String :=
  if rootPath = "" then path
  else
    match path.toList.dropPrefix? rootPath.toList with
    | none => path
    | some [] => "/"
    | some rest => String.ofList rest

/-- The part of `fullPath` that precedes `subPath`. -/
def mountPrefix (fullPath subPath : String) : String :=
  if subPath = "" ∨ subPath = "/" then String.ofList (fullPath.toList.rdropWhile (· = '/'))
  else
    match fullPath.toList.dropSuffix? subPath.toList with
    | none => ""
    | some front => String.ofList front

theorem dropPrefix?_append (l rest : List Char) : (l ++ rest).dropPrefix? l = some rest := by
  rw [List.dropPrefix?_eq_some_iff]
  exact ⟨l, rfl, by simp⟩

theorem dropPrefix?_eq_some {l s rest : List Char} :
    l.dropPrefix? s = some rest ↔ l = s ++ rest := by
  rw [List.dropPrefix?_eq_some_iff]
  constructor
  · rintro ⟨s', rfl, hs⟩
    rw [eq_of_beq hs]
  · rintro rfl
    exact ⟨s, rfl, by simp⟩

theorem dropSuffix?_append (front l : List Char) : (front ++ l).dropSuffix? l = some front := by
  rw [List.dropSuffix?_eq_some_iff]
  exact ⟨l, rfl, by simp⟩

/-- **A prefix is taken off a path**, and leaves the root where there is nothing else. -/
theorem splitPath_append (rootPath rest : String) :
    splitPath (rootPath ++ rest) rootPath = if rest = "" ∧ rootPath ≠ "" then "/" else rest := by
  unfold splitPath
  by_cases hroot : rootPath = ""
  · rw [if_pos hroot, hroot, String.empty_append, if_neg (by simp)]
  · rw [if_neg hroot, String.toList_append, dropPrefix?_append]
    cases hrest : rest.toList with
    | nil =>
      rw [String.toList_eq_nil_iff.mp hrest, if_pos ⟨rfl, hroot⟩]
    | cons c cs =>
      have hne : rest ≠ "" := by
        rintro rfl
        cases hrest
      rw [if_neg (fun h => hne h.1)]
      dsimp only
      rw [← hrest, String.ofList_toList]

/-- The path to route on is found whether the host left the mount prefix in the path, took it off,
or never had it there, and a request for the mount point is one for the root. -/
def RoutesAlike (rootPath path : String) : Prop :=
  splitPath (rootPath ++ path) rootPath = path ∧ splitPath path rootPath = path
    ∧ splitPath rootPath rootPath = "/"

/-- **Every convention is served exactly where the path does not begin with the prefix** by
itself. -/
theorem routesAlike_iff {rootPath path : String}
    (hroot : rootPath.toList.head? = some '/' ∧ rootPath.toList.getLast? ≠ some '/')
    (hpath : path.toList.head? = some '/') :
    RoutesAlike rootPath path ↔ ¬ rootPath.toList <+: path.toList := by
  have hroot_ne : rootPath ≠ "" := by
    rintro rfl
    cases hroot.1
  have hpath_ne : path ≠ "" := by
    rintro rfl
    cases hpath
  have hwhole : splitPath (rootPath ++ path) rootPath = path := by
    rw [splitPath_append, if_neg fun h => hpath_ne h.1]
  have hpoint : splitPath rootPath rootPath = "/" := by
    have h := splitPath_append rootPath ""
    rwa [String.append_empty, if_pos ⟨rfl, hroot_ne⟩] at h
  rw [RoutesAlike, and_iff_right hwhole, and_iff_left hpoint]
  constructor
  · rintro hstripped ⟨rest, hrest⟩
    obtain rfl : path = rootPath ++ String.ofList rest := by
      rw [← String.toList_inj, String.toList_append, String.toList_ofList, hrest]
    rw [splitPath_append] at hstripped
    split at hstripped
    · next hempty =>
      -- the path is the prefix, which is not the root
      rw [hempty.1, String.append_empty] at hstripped
      rw [← hstripped] at hroot
      exact hroot.2 rfl
    · have hlength := congrArg (fun text : String => text.toList.length) hstripped
      rw [String.toList_append, List.length_append] at hlength
      exact hroot_ne (String.toList_eq_nil_iff.mp (List.length_eq_zero_iff.mp (by omega)))
  · intro hnot
    rw [splitPath, if_neg hroot_ne]
    cases hdrop : path.toList.dropPrefix? rootPath.toList with
    | none => rfl
    | some rest => exact absurd ⟨rest, (dropPrefix?_eq_some.mp hdrop).symm⟩ hnot

/-- A prefix that no route begins with. -/
theorem routesAlike_taskflow :
    RoutesAlike "/taskflow" "/api/v1/flows" ↔ ¬ "/taskflow".toList <+: "/api/v1/flows".toList :=
  routesAlike_iff (by decide +kernel) (by decide +kernel)

/-- **A prefix that is not in the path is taken for one that is.** -/
theorem route_stripped : ¬ RoutesAlike "/api" "/api/v1/flows" := by
  rintro ⟨-, hstripped, -⟩
  exact absurd hstripped (by decide +kernel)

/-- **What comes before a path is told from it.** -/
theorem mountPrefix_append (front : String) {subPath : String} (h : subPath ≠ "" ∧ subPath ≠ "/") :
    mountPrefix (front ++ subPath) subPath = front := by
  rw [mountPrefix, if_neg (by simp [h]), String.toList_append, dropSuffix?_append]
  dsimp only
  rw [String.ofList_toList]

/-! ### Requests -/

/-- One inbound request, reduced to what a handler needs. -/
structure MeterRequest where
  method : String := "GET"
  path : String := "/"
  /-- Where the application is mounted. -/
  urlPrefix : String := ""
  query : Dict String (List String) := ∅
  headers : Dict String String := ∅
  pathParams : Dict String String := ∅
  /-- The most digits of an integer that the interpreter reads (`sys.get_int_max_str_digits()`, which
  is 4300 unless it is told otherwise), if it has a limit. -/
  maxStrDigits : Option ℕ := none
  deriving DecidableEq, Repr

/-- The values of each name of a query string. -/
def parseQs (queryString : String) : Dict String (List String) :=
  (Url.parseQsl queryString).foldl (fun query p => query.set p.1 (query.getD p.1 [] ++ [p.2])) ∅

namespace MeterRequest

/-- A request with its query. -/
def fromQueryString (queryString : String) (request : MeterRequest) : MeterRequest :=
  { request with query := parseQs queryString }

def param (request : MeterRequest) (name : String) : Except Raised String :=
  match request.pathParams.get? name with
  | some value => .ok value
  | none => .error (.lookupError ("no such path parameter: " ++ name))

/-- The first value of a query parameter. -/
def get (request : MeterRequest) (name : String) : Option String :=
  ((request.query.get? name).getD []).head?

def getInt (request : MeterRequest) (name : String) (default : ℤ) : Except Raised ℤ :=
  match request.get name with
  | none => .ok default
  | some raw =>
      if raw = "" then .ok default
      else
        match PyInt.int? raw request.maxStrDigits with
        | some n => .ok n
        | none => .error (badRequest (name ++ " must be an integer, got " ++ (Json.str raw).repr))

/-- A link back into the application, under its mount prefix. -/
def url (request : MeterRequest) (path : String) (query : List (String × Option String) := []) :
    String :=
  let full := request.urlPrefix ++ path
  let pairs := query.filterMap fun p => p.2.map fun value => (p.1, value)
  if pairs.isEmpty then full else full ++ "?" ++ Url.urlencode pairs

theorem get_of_none {request : MeterRequest} {name : String} (h : request.query.get? name = none) :
    request.get name = none := by
  rw [get, h]
  rfl

theorem getInt_of_none {request : MeterRequest} {name : String} (h : request.get name = none)
    (default : ℤ) : request.getInt name default = .ok default := by
  rw [getInt, h]

end MeterRequest

/-- The parameter of a link of one parameter. -/
theorem parseQs_urlencode_singleton (name value : String) :
    parseQs (Url.urlencode [(name, value)]) = (∅ : Dict String (List String)).set name [value] := by
  rw [parseQs, Url.parseQsl_urlencode]
  rfl

/-! ### Responses -/

namespace Json

/-- A UTF-16 unit as an escape. -/
def escapeUnit (n : ℕ) : List Char := '\\' :: 'u' :: (Nat.toDigits 16 (0x10000 + n)).drop 1

/-- A character of a JSON string, in ASCII. -/
def escapeChar (c : Char) : List Char :=
  match c with
  | '"' => ['\\', '"']
  | '\\' => ['\\', '\\']
  | '\n' => ['\\', 'n']
  | '\r' => ['\\', 'r']
  | '\t' => ['\\', 't']
  | '\x08' => ['\\', 'b']
  | '\x0c' => ['\\', 'f']
  | c =>
      if ' ' ≤ c ∧ c ≤ '~' then [c]
      else if c.toNat < 0x10000 then escapeUnit c.toNat
      else
        escapeUnit (0xd800 + (c.toNat - 0x10000) / 0x400)
          ++ escapeUnit (0xdc00 + (c.toNat - 0x10000) % 0x400)

def dumpsStr (text : String) : String :=
  String.ofList ('"' :: text.toList.flatMap escapeChar ++ ['"'])

mutual

/-- `json.dumps(payload, separators=(",", ":"))`, but for the texts of numbers.  These are Lean's: a
`float` that is an integer is written as one, where `json.dumps` writes `0.0`. -/
def dumps : Json → String
  | .null => "null"
  | .bool b => if b then "true" else "false"
  | .num q => toString q
  | .str s => dumpsStr s
  | .arr items => "[" ++ ",".intercalate (dumpsItems items) ++ "]"
  | .obj fields => "\x7b" ++ ",".intercalate (dumpsFields fields) ++ "\x7d"

def dumpsItems : List Json → List String
  | [] => []
  | x :: xs => dumps x :: dumpsItems xs

def dumpsFields : List (String × Json) → List String
  | [] => []
  | (k, x) :: xs => (dumpsStr k ++ ":" ++ dumps x) :: dumpsFields xs

end

end Json

def JSON_CONTENT_TYPE : String := "application/json"

/-- A complete, already-rendered response. -/
structure MeterResponse where
  status : ℕ := 200
  body : List UInt8 := []
  headers : List (String × String) := []
  deriving DecidableEq

namespace MeterResponse

/-- The length of the body is that of the text of `Json.dumps`, numbers included. -/
def json (payload : Json) (status : ℕ := 200) (headers : List (String × String) := []) :
    MeterResponse :=
  let body := Utf8.encode payload.dumps.toList
  { status := status
    body := body
    headers := [("content-type", JSON_CONTENT_TYPE), ("content-length", toString body.length)]
      ++ headers }

def fromError (error : ApiError) : MeterResponse :=
  json
    (.obj [("error", .obj
      [("status", .num error.kind.status), ("title", .str error.kind.title),
        ("detail", .str error.detail)])])
    error.kind.status error.headers

/-- The text of an error is never empty. -/
theorem body_fromError_ne_nil (error : ApiError) : (fromError error).body ≠ [] := by
  intro h
  rw [fromError, json] at h
  dsimp only at h
  rw [Json.dumps, String.toList_append, String.toList_append, Utf8.encode_append,
    Utf8.encode_append] at h
  have hbrace : Utf8.encode "\x7b".toList ≠ [] := by decide
  exact hbrace (List.append_eq_nil_iff.mp (List.append_eq_nil_iff.mp h).1).1

end MeterResponse

end TaskflowMeter
