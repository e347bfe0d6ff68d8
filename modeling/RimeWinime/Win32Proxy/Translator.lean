import RimeWinime.Win32Proxy.Barrier

namespace RimeWinime.Win32Proxy

open World Outside
open Lines (complete)
open Utf8 (encode)

inductive CommentMode
  | read
  | static
  | none
deriving DecidableEq

/-- What the schema says, if it says it. -/
structure Settings where
  codepage : Int := 936
  command : List UInt8 := encode "PIPEU"
  tag : List UInt8 := encode "abc"
  maxCandidates : Int := 9
  commentMode : List UInt8 := encode "none"
  oneShot : Bool := false

structure Translator where
  client : Config
  tag : List UInt8
  maxCandidates : Nat
  commentMode : CommentMode
  positive : 0 < maxCandidates

def commentModeOf (mode : List UInt8) : CommentMode :=
  if mode = encode "read" then .read else if mode = encode "static" then .static else .none

/-- The constructor of the translator. -/
def Translator.new (settings : Settings) : Translator where
  client :=
    { codepage := settings.codepage
      command := sanitizeLine (if settings.command = [] then encode "PIPEU" else settings.command)
      oneShot := settings.oneShot
      oneLine := newline_not_mem_sanitizeLine _ }
  tag := settings.tag
  maxCandidates := if settings.maxCandidates ≤ 0 then 9 else settings.maxCandidates.toNat
  commentMode := commentModeOf settings.commentMode
  positive := by
    split
    · omega
    · omega

structure Segment where
  start : Nat
  stop : Nat
  tags : List (List UInt8)

structure Candidate where
  start : Nat
  stop : Nat
  text : List UInt8
  comment : List UInt8
  preedit : List UInt8
  quality : Int
deriving DecidableEq

def comment (mode : CommentMode) (result : ProxyResult) : List UInt8 :=
  match mode with
  | .read => result.reading
  | .static => encode "w32"
  | .none => []

def candidate (t : Translator) (input : List UInt8) (segment : Segment) (result : ProxyResult)
    (item : List UInt8 × Nat) : Candidate :=
  { start := segment.start
    stop := segment.stop
    text := item.1
    comment := comment t.commentMode result
    preedit := if result.composition = [] then input else result.composition
    quality := 100 - item.2 }

def translation (t : Translator) (input : List UInt8) (segment : Segment) (result : ProxyResult) :
    List Candidate :=
  ((result.items.take t.maxCandidates).zipIdx).map (candidate t input segment result)

/-- Is the segment one of the translator's? -/
def wants (t : Translator) (input : List UInt8) (segment : Segment) : Bool :=
  input ≠ [] && (t.tag = [] || t.tag ∈ segment.tags)

def Translator.query (t : Translator) (os : Os) (patience : Nat) (input : List UInt8)
    (segment : Segment) : Run (Option (List Candidate)) := do
  if wants t input segment then
    let result ← Win32Proxy.query os t.client patience input
    pure (result.map (translation t input segment))
  else pure none

def Translator.queries (t : Translator) (os : Os) (patience : Nat) :
    List (List UInt8 × Segment) → Run Unit
  | [] => pure ()
  | (input, segment) :: asked => do
      let _ ← t.query os patience input segment
      t.queries os patience asked

theorem texts_translation (t : Translator) (input : List UInt8) (segment : Segment)
    (result : ProxyResult) :
    (translation t input segment result).map Candidate.text = result.items.take t.maxCandidates := by
  rw [translation, List.map_map]
  exact List.zipIdx_map_fst 0 _

theorem translation_pairwise (t : Translator) (input : List UInt8) (segment : Segment)
    (result : ProxyResult) :
    (translation t input segment result).Pairwise (fun a b => b.quality < a.quality) := by
  rw [translation, List.pairwise_map]
  have hplaces : ((result.items.take t.maxCandidates).zipIdx).Pairwise (fun a b => a.2 < b.2) := by
    have hrange := List.pairwise_lt_range' (s := 0) (n := (result.items.take t.maxCandidates).length)
    rw [← List.zipIdx_map_snd 0 (result.items.take t.maxCandidates), List.pairwise_map] at hrange
    exact hrange
  apply hplaces.imp
  intro a b hab
  simp only [candidate]
  omega

theorem translation_ne_nil (t : Translator) (input : List UInt8) (segment : Segment)
    {result : ProxyResult} (h : result.items ≠ []) : translation t input segment result ≠ [] := by
  intro hnil
  have htexts := texts_translation t input segment result
  rw [hnil, List.map_nil] at htexts
  rcases List.take_eq_nil_iff.mp htexts.symm with hzero | hitems
  · exact absurd hzero t.positive.ne'
  · exact h hitems

section

variable {host : Host} {os : Os} {w : Program State Call.Answer}

theorem translatorQuery_cases (hos : Obeys host os) (t : Translator) (patience : Nat)
    (input : List UInt8) (segment : Segment) (hw : Idle host w) :
    let r := t.query os patience input segment w
    Idle host r.2 ∧ ∀ list, r.1 = some list → ∃ result, list = translation t input segment result ∧
      Answered host (commandFor t.client.command (sanitizeQueryInput input)) w r.2 result := by
  intro r
  obtain ⟨hidle, -, hanswered⟩ := query_cases hos t.client patience input hw
  have hrun : r = (if wants t input segment = true then do
      let result ← query os t.client patience input
      pure (result.map (translation t input segment))
    else pure none : Run (Option (List Candidate))) w := rfl
  by_cases hwants : wants t input segment = true
  · rw [if_pos hwants] at hrun
    rw [hrun]
    refine ⟨hidle, fun list hlist => ?_⟩
    obtain ⟨result, hresult, hsame⟩ := Option.map_eq_some_iff.mp hlist
    exact ⟨result, hsame.symm, hanswered result hresult⟩
  · rw [if_neg hwants] at hrun
    rw [hrun]
    exact ⟨hw, fun _ h => by cases h⟩

theorem translatorQueries_idle (hos : Obeys host os) (t : Translator) (patience : Nat)
    (asked : List (List UInt8 × Segment)) (hw : Idle host w) :
    Idle host (t.queries os patience asked w).2 := by
  induction asked generalizing w with
  | nil => exact hw
  | cons first asked ih =>
      obtain ⟨hidle, -⟩ := translatorQuery_cases hos t patience first.1 first.2 hw
      exact ih hidle

theorem idle_started (host : Host) : Idle host started := by
  have hneg : ¬(0 : Int) ≤ -1 := by decide
  exact ⟨fun _ => rfl, fun h => absurd h hneg⟩

end

/-- A network that carries all that the host says, at once. -/
def promptOs (host : Host) : Os
  | _, .socket => (3 : Int)
  | _, .connect _ => true
  | _, .send _ bytes => (bytes.length : Int)
  | past, .recv _ => (bytesOf (host.told (complete newline (linkOf past).sent))).drop
      (linkOf past).heard.length
  | _, .close _ => ()

theorem obeys_promptOs (host : Host) : Obeys host (promptOs host) := by
  rintro past fd ⟨rest, hrest⟩
  rw [promptOs, ← hrest, List.drop_left]

def twoCandidates (lines : List Line) : Line :=
  match lines.getLast? with
  | some line =>
      if startsWith line (encode "ACTIVATE") then encode "OK ACTIVATE"
      else if startsWith line (encode "CP ") then encode "OK CP 936"
      else encode "CAND_RET comp=[ni] read=[] data=#0\x7bitems=[a|b]\x7d"
  | none => []

def twoCandidatesHost : Host where
  greeting := encode "HELLO host"
  answer := twoCandidates
  greetingLine := newline_not_mem_of_all rfl
  oneLine lines := by
    unfold twoCandidates
    split
    · split
      · exact newline_not_mem_of_all rfl
      · split
        · exact newline_not_mem_of_all rfl
        · exact newline_not_mem_of_all rfl
    · exact List.not_mem_nil
  greets := rfl
  activates lines line h := by
    unfold twoCandidates at h
    rw [List.getLast?_concat] at h
    simp only at h
    by_cases hactivates : startsWith line (encode "ACTIVATE") = true
    · exact hactivates
    · rw [if_neg hactivates] at h
      split at h
      · cases h
      · cases h

def abc : Segment := ⟨0, 4, [encode "abc"]⟩

def aAndB : List Candidate :=
  [⟨0, 4, encode "a", [], encode "ni", 100⟩, ⟨0, 4, encode "b", [], encode "ni", 99⟩]

end RimeWinime.Win32Proxy
