import TaskflowMeter.Lib.Utf8

/-!
# Event streams

What a client makes of the bytes of a `text/event-stream` response: it reads line by line, takes
fields from lines and dispatches a message at each blank line that has data before it.

## Main definitions

* `EventStream.lines` — the lines that are ended.
* `EventStream.Client`, `EventStream.processLine` — the client, and what it does with a line.
* `EventStream.parse` — the client after a response.

## Main results

* `lines_unlines_append` — what is written line by line is read line by line.
* `processLine_field` — a line with a field.
* `dispatch_data` — **any data before a blank line is a message**, an empty text too.
-/

namespace EventStream

/-- What a client dispatches. -/
structure Message where
  type : String
  data : String
  lastEventId : String
  deriving DecidableEq, Repr

/-- The buffers of a client, and what it has dispatched. -/
structure Client where
  data : List Char := []
  eventType : List Char := []
  idBuffer : List Char := []
  lastEventId : List Char := []
  reconnectionTime : Option ℕ := none
  messages : List Message := []
  deriving DecidableEq, Repr

/-- The lines that are ended, by a line feed, a carriage return or the two. -/
def lines : List Char → List (List Char)
  | [] => []
  | '\n' :: rest => [] :: lines rest
  | '\r' :: '\n' :: rest => [] :: lines rest
  | '\r' :: rest => [] :: lines rest
  | c :: rest =>
      match lines rest with
      | [] => []
      | line :: more => (c :: line) :: more

/-- A message is dispatched if there is data; its last line feed is left out. -/
def dispatch (client : Client) : Client :=
  let client := { client with lastEventId := client.idBuffer }
  if client.data = [] then { client with eventType := [] }
  else
    let message : Message :=
      { type := if client.eventType = [] then "message" else String.ofList client.eventType
        data := String.ofList
          (if client.data.getLast? = some '\n' then client.data.dropLast else client.data)
        lastEventId := String.ofList client.lastEventId }
    { client with data := [], eventType := [], messages := client.messages ++ [message] }

def processField (client : Client) (field value : List Char) : Client :=
  match String.ofList field with
  | "event" => { client with eventType := value }
  | "data" => { client with data := client.data ++ value ++ ['\n'] }
  | "id" => if '\x00' ∈ value then client else { client with idBuffer := value }
  | "retry" =>
      if value.all Char.isDigit then
        { client with reconnectionTime := some (Nat.ofDigitChars 10 value 0) }
      else client
  | _ => client

/-- The value of a field is what follows the colon, and a space that follows it. -/
def valueOf : List Char → List Char
  | ':' :: ' ' :: value => value
  | ':' :: value => value
  | value => value

def processLine (client : Client) (line : List Char) : Client :=
  match line with
  | [] => dispatch client
  | ':' :: _ => client
  | line => processField client (line.takeWhile (· ≠ ':')) (valueOf (line.dropWhile (· ≠ ':')))

/-- A byte order mark is left out. -/
def dropMark : List Char → List Char
  | '\uFEFF' :: text => text
  | text => text

/-- The client after a response. -/
def parse (bytes : List UInt8) : Client :=
  (lines (dropMark (Utf8.decode bytes))).foldl processLine {}

/-! ### Lines -/

def IsLine (line : List Char) : Prop := '\n' ∉ line ∧ '\r' ∉ line

theorem lines_append {line : List Char} (h : IsLine line) (rest : List Char) :
    lines (line ++ '\n' :: rest) = line :: lines rest := by
  induction line with
  | nil => rfl
  | cons c line ih =>
    have hn : c ≠ '\n' := fun heq => h.1 (heq ▸ List.mem_cons_self)
    have hr : c ≠ '\r' := fun heq => h.2 (heq ▸ List.mem_cons_self)
    have ih := ih ⟨fun hmem => h.1 (List.mem_cons_of_mem c hmem),
      fun hmem => h.2 (List.mem_cons_of_mem c hmem)⟩
    rw [List.cons_append, lines.eq_def]
    split <;> simp_all

/-- Lines that are each ended by a line feed. -/
def unlines (ls : List (List Char)) : List Char := ls.flatMap (· ++ ['\n'])

theorem unlines_cons (l : List Char) (ls : List (List Char)) :
    unlines (l :: ls) = l ++ '\n' :: unlines ls := by
  rw [unlines, List.flatMap_cons, List.append_assoc]
  rfl

theorem unlines_append (ls ls' : List (List Char)) :
    unlines (ls ++ ls') = unlines ls ++ unlines ls' := List.flatMap_append

theorem intercalate_append_newline {ls : List (List Char)} (h : ls ≠ []) :
    ['\n'].intercalate ls ++ ['\n'] = unlines ls := by
  induction ls with
  | nil => exact absurd rfl h
  | cons l ls ih =>
    cases ls with
    | nil => simp [unlines]
    | cons l' ls =>
      rw [List.intercalate_cons_cons, List.append_assoc, ih (List.cons_ne_nil _ _),
        unlines_cons l, List.append_assoc]
      rfl

theorem lines_unlines_append {ls : List (List Char)} (h : ∀ l ∈ ls, IsLine l) (rest : List Char) :
    lines (unlines ls ++ rest) = ls ++ lines rest := by
  induction ls with
  | nil => rfl
  | cons l ls ih =>
    rw [unlines_cons, List.append_assoc, List.cons_append, lines_append (h l List.mem_cons_self),
      ih fun l' hl' => h l' (List.mem_cons_of_mem l hl'), List.cons_append]

/-- What is between line feeds. -/
theorem mem_splitOn {text part : List Char} (h : part ∈ text.splitOn '\n') :
    '\n' ∉ part ∧ ∀ c ∈ part, c ∈ text := by
  induction text generalizing part with
  | nil =>
    rw [List.splitOn_nil, List.mem_singleton] at h
    subst h
    exact ⟨List.not_mem_nil, nofun⟩
  | cons c text ih =>
    rw [List.splitOn_cons_eq_if_modifyHead] at h
    have hrest : ∀ {part}, part ∈ text.splitOn '\n' → '\n' ∉ part ∧ ∀ d ∈ part, d ∈ c :: text :=
      fun hpart => ⟨(ih hpart).1, fun d hd => List.mem_cons_of_mem c ((ih hpart).2 d hd)⟩
    split at h
    · rcases List.mem_cons.mp h with rfl | h
      · exact ⟨List.not_mem_nil, nofun⟩
      · exact hrest h
    · next hc =>
      cases hsplit : text.splitOn '\n' with
      | nil => exact absurd hsplit (List.splitOn_ne_nil _ _)
      | cons first more =>
        rw [hsplit] at h
        rcases List.mem_cons.mp h with rfl | h
        · have hin : first ∈ text.splitOn '\n' := by
            rw [hsplit]
            exact List.mem_cons_self
          obtain ⟨hfirst, hmem⟩ := hrest hin
          refine ⟨?_, ?_⟩
          · rw [List.mem_cons, not_or]
            exact ⟨fun heq => hc (by rw [← heq]; rfl), hfirst⟩
          · intro d hd
            rcases List.mem_cons.mp hd with rfl | hd
            · exact List.mem_cons_self
            · exact hmem d hd
        · exact hrest (by rw [hsplit]; exact List.mem_cons_of_mem first h)

/-! ### Fields -/

/-- A line with a field. -/
theorem processLine_field (client : Client) (field value : List Char) (hne : field ≠ [])
    (hcolon : ':' ∉ field) :
    processLine client (field ++ ':' :: ' ' :: value) = processField client field value := by
  have htake : (field ++ ':' :: ' ' :: value).takeWhile (· ≠ ':') = field := by
    rw [List.takeWhile_append_of_pos]
    · simp
    · intro c hc
      simpa using fun heq : c = ':' => hcolon (heq ▸ hc)
  have hdrop : (field ++ ':' :: ' ' :: value).dropWhile (· ≠ ':') = ':' :: ' ' :: value := by
    rw [List.dropWhile_append_of_pos]
    · simp
    · intro c hc
      simpa using fun heq : c = ':' => hcolon (heq ▸ hc)
  cases field with
  | nil => exact absurd rfl hne
  | cons c field =>
    have hc : c ≠ ':' := fun heq => hcolon (heq ▸ List.mem_cons_self)
    rw [List.cons_append] at htake hdrop ⊢
    rw [processLine]
    · rw [htake, hdrop, valueOf]
    · exact nofun
    · intro line heq
      exact hc (List.cons.inj heq).1

/-- The data of several lines. -/
theorem foldl_data (client : Client) (parts : List (List Char)) :
    (parts.map fun part => "data: ".toList ++ part).foldl processLine client
      = { client with data := client.data ++ unlines parts } := by
  induction parts generalizing client with
  | nil => simp [unlines]
  | cons part parts ih =>
    have hline : processLine client ("data: ".toList ++ part)
        = { client with data := client.data ++ part ++ ['\n'] } :=
      processLine_field client "data".toList part (by decide) (by decide)
    rw [List.map_cons, List.foldl_cons, hline, ih, unlines_cons]
    simp

/-- **Any data before a blank line is a message**, an empty text too. -/
theorem dispatch_data (client : Client) (text : List Char) :
    dispatch { client with data := text ++ ['\n'] }
      = { client with
          data := []
          eventType := []
          lastEventId := client.idBuffer
          messages := client.messages ++
            [{ type := if client.eventType = [] then "message" else String.ofList client.eventType
               data := String.ofList text
               lastEventId := String.ofList client.idBuffer }] } := by
  rw [dispatch, if_neg (by simp)]
  simp

end EventStream
