import Mathlib.Data.List.TakeDrop
import RimeWinime.Skeleton.Settings

namespace RimeWinime.ImeHost

open World Outside
open CString ImeText
open CandidateReply (InLine inLine_append inLine_flatten inLine_of_all inLine_clean inLine_encode
  inLine_number inLine_signed number signed replyBuffer length_replyBuffer length_replyBuffer_pos)
open Utf8 (encode)

theorem mem_toDigits (n : Nat) : ∀ c ∈ Nat.toDigits 16 n, ∃ d, d < 16 ∧ c = d.digitChar := by
  induction n using Nat.strong_induction_on with
  | _ n ih =>
      intro c hc
      rw [Nat.toDigits_eq_if (by omega)] at hc
      split at hc
      · next hn =>
          rw [List.mem_singleton] at hc
          exact ⟨n, hn, hc⟩
      · rcases List.mem_append.mp hc with hc | hc
        · exact ih (n / 16) (by omega) c hc
        · rw [List.mem_singleton] at hc
          exact ⟨n % 16, by omega, hc⟩

theorem mem_hexDigits {width n : Nat} {c : Char} (hc : c ∈ hexDigits width n) :
    ∃ d, d < 16 ∧ c = d.digitChar := by
  rw [hexDigits, List.leftpad, List.mem_append] at hc
  rcases hc with hc | hc
  · exact ⟨0, by omega, List.eq_of_mem_replicate hc⟩
  · exact mem_toDigits n c hc

theorem inLine_hex (width n : Nat) : InLine (hex width n) := by
  apply inLine_encode
  intro c hc
  rw [String.toList_ofList] at hc
  obtain ⟨d, hd, rfl⟩ := mem_hexDigits hc
  have hall : ∀ d < 16, 0x20 ≤ d.digitChar.toNat := by decide
  exact hall d hd

theorem inLine_upperHex (width n : Nat) : InLine (upperHex width n) := by
  apply inLine_encode
  intro c hc
  rw [String.toList_ofList, List.mem_map] at hc
  obtain ⟨digit, hdigit, rfl⟩ := hc
  obtain ⟨d, hd, rfl⟩ := mem_hexDigits hdigit
  have hall : ∀ d < 16, 0x20 ≤ d.digitChar.toUpper.toNat := by decide
  exact hall d hd

theorem inLine_decoded (multiByteToWide : UInt32 → List UInt8 → Option (List UInt16)) (cp : UInt32)
    (w : List UInt16) (size : Nat) : InLine (decodeImeWideText multiByteToWide cp w size) :=
  inLine_clean (clean_decodeImeWideText multiByteToWide cp w size)

/-- A reply begins with one of these, has no newline but at its end, and ends with it unless it
fills the buffer. -/
structure IsReply (kinds : List String) (reply : List UInt8) : Prop where
  kind : ∃ kind ∈ kinds, encode kind <+: reply
  line : newline ∉ reply.dropLast
  short : reply.length < replyBuffer.length
  whole : reply.length + 1 < replyBuffer.length → reply.getLast? = some newline

/-- A line that begins so. -/
def IsLineOf (kind : String) (text : List UInt8) : Prop :=
  ∃ body, text = encode kind ++ (body ++ [newline]) ∧ InLine body

/-- A beginning that fits into the buffer. -/
def IsKind (kind : String) : Prop := InLine (encode kind) ∧ (encode kind).length + 1 < replyBuffer.length

theorem isReply_take {kinds : List String} {kind : String} (hmem : kind ∈ kinds) (hkind : IsKind kind)
    {text : List UInt8} (htext : IsLineOf kind text) :
    IsReply kinds (text.take (replyBuffer.length - 1)) := by
  obtain ⟨body, rfl, hbody⟩ := htext
  obtain ⟨hkindLine, hkindLen⟩ := hkind
  have hpos := length_replyBuffer_pos
  have hline : newline ∉ encode kind ++ body := by
    intro h
    exact (inLine_append.mpr ⟨hkindLine, hbody⟩ newline h).2.1 rfl
  rw [← List.append_assoc]
  refine ⟨⟨kind, hmem, ?_⟩, ?_, ?_, ?_⟩
  · rw [List.append_assoc, List.take_append]
    rw [List.take_of_length_le (by omega)]
    exact List.prefix_append _ _
  · intro h
    rw [List.dropLast_take_eq_take_dropLast, List.dropLast_concat] at h
    exact hline (List.mem_of_mem_take h)
  · have hlen := List.length_take_le (replyBuffer.length - 1) (encode kind ++ body ++ [newline])
    omega
  · intro hlen
    rw [List.length_take] at hlen
    rw [List.take_of_length_le (by omega), List.getLast?_concat]

theorem nul_not_mem {kind : String} (hkind : IsKind kind) {text : List UInt8}
    (htext : IsLineOf kind text) : 0 ∉ text := by
  obtain ⟨body, rfl, hbody⟩ := htext
  intro h
  rcases List.mem_append.mp h with h | h
  · exact (hkind.1 0 h).1 rfl
  · rcases List.mem_append.mp h with h | h
    · exact (hbody 0 h).1 rfl
    · cases List.mem_singleton.mp h

theorem cString_eq_self {text : List UInt8} (h : 0 ∉ text) : cString text = text := by
  have hall : ∀ byte ∈ text, decide (byte ≠ 0) = true := by
    intro byte hbyte
    rw [decide_eq_true_eq]
    rintro rfl
    exact h hbyte
  exact List.takeWhile_eq_self_iff.mpr hall

theorem isReply_printed {kinds : List String} {kind : String} (hmem : kind ∈ kinds)
    (hkind : IsKind kind) {text : List UInt8} (htext : IsLineOf kind text) :
    IsReply kinds (printed text) := by
  rw [printed, cString_eq_self fun h => nul_not_mem hkind htext (List.mem_of_mem_take h)]
  exact isReply_take hmem hkind htext

/-- What is appended in pieces is cut off as if it were printed at once. -/
theorem isReply_appended {kinds : List String} {kind : String} (hmem : kind ∈ kinds)
    (hkind : IsKind kind) {texts : List (List UInt8)} (htext : IsLineOf kind texts.flatten) :
    IsReply kinds (appended texts) := by
  have hpos := length_replyBuffer_pos
  cases texts with
  | nil =>
      obtain ⟨body, hbody, -⟩ := htext
      exact absurd hbody.symm (List.append_ne_nil_of_right_ne_nil _ (List.append_ne_nil_of_right_ne_nil _
        (List.cons_ne_nil _ _)))
  | cons text texts =>
      obtain ⟨next, hnext, hholds, hprinted⟩ :=
        CandidateReply.appendf_spec hpos (CandidateReply.holds_empty replyBuffer) text
      obtain ⟨out, hout, hall, hdone⟩ := CandidateReply.appendAll_spec hpos texts hholds hprinted
      have happend : CandidateReply.appendAll ⟨replyBuffer, 0⟩ (text :: texts) = some out :=
        (CandidateReply.appendAll_cons hnext texts).trans hout
      rw [List.nil_append, ← List.flatten_cons] at hdone
      have hstring := cString_printed hdone (nul_not_mem hkind htext)
      rw [hall.length] at hstring
      rw [appended, happend, Option.map_some, Option.getD_some, hstring]
      exact isReply_take hmem hkind htext

/-- A line that is short enough to be sent as it is. -/
theorem isReply_whole {kinds : List String} {kind : String} (hmem : kind ∈ kinds)
    (hkind : IsKind kind) {text : List UInt8} (htext : IsLineOf kind text)
    (hlen : text.length < 100) : IsReply kinds text := by
  have hreply := isReply_take hmem hkind htext
  rwa [List.take_of_length_le] at hreply
  rw [length_replyBuffer]
  omega

theorem isReply_literal {kinds : List String} {kind : String} (hmem : kind ∈ kinds)
    (hkind : IsKind kind) {text : List UInt8} (htext : text = encode kind ++ [newline]) :
    IsReply kinds text := by
  have hreply := isReply_take hmem hkind ⟨[], htext, fun _ h => by cases h⟩
  rwa [List.take_of_length_le] at hreply
  rw [htext, List.length_append, List.length_singleton]
  have hlen := hkind.2
  omega

theorem isLineOf_of_inLine {kind : String} {text : List UInt8} (hbegins : encode kind <+: text)
    (htext : InLine text) : IsLineOf kind (text ++ [newline]) := by
  obtain ⟨body, rfl⟩ := hbegins
  exact ⟨body, List.append_assoc _ _ _, (inLine_append.mp htext).2⟩

theorem isLineOf_okCp (cp : UInt32) : IsLineOf "OK CP " (okCp cp) :=
  ⟨number cp.toNat, List.append_assoc _ _ _, inLine_number _⟩

theorem isLineOf_okCommit (n : Int) :
    IsLineOf "OK COMMIT notify=" (encode "OK COMMIT notify=" ++ signed n ++ encode "\n") :=
  ⟨signed n, List.append_assoc _ _ _, inLine_signed _⟩

theorem inLine_flag (b : Bool) : InLine (flag b) := inLine_number _

theorem inLine_pointer (h : Handle) : InLine (pointer h) := inLine_upperHex _ _

theorem isLineOf_keyReply (s : State) (scan : UInt32) (p : Processed) :
    IsLineOf "KEY_RET " (keyReply s scan p) := by
  have hmsg : InLine (if 0 < p.tml.msgCount then
      encode " firstMsg=0x" ++ hex 4 (p.tml.transMsg 0).message.toNat ++
        encode " firstW=0x" ++ hex 8 (p.tml.transMsg 0).wParam.toNat ++
        encode " firstL=0x" ++ hex 8 (p.tml.transMsg 0).lParam.toNat
    else []) := by
    split
    · simp only [inLine_append, inLine_hex, and_true]
      and_intros <;> exact inLine_of_all rfl
    · exact fun _ h => by cases h
  have hkind : encode "KEY_RET process=" = encode "KEY_RET " ++ encode "process=" := rfl
  apply isLineOf_of_inLine
  · rw [hkind]
    simp only [List.append_assoc]
    exact List.prefix_append _ _
  · simp only [inLine_append, inLine_signed, inLine_number, inLine_hex, hmsg, and_true]
    and_intros <;> exact inLine_of_all rfl

theorem isLineOf_statusText {narrow : List UInt16 → List UInt8} {s : State}
    (hclass : InLine (narrow s.uiClass)) (herror : InLine s.lastError) :
    IsLineOf "STATUS " (statusText narrow s) := by
  have hshown : InLine (if s.lastError ≠ [] then s.lastError else encode "none") := by
    split
    · exact herror
    · exact inLine_of_all rfl
  have hkind : encode "STATUS visible=" = encode "STATUS " ++ encode "visible=" := rfl
  apply isLineOf_of_inLine
  · rw [hkind]
    simp only [List.append_assoc]
    exact List.prefix_append _ _
  · simp only [inLine_append, inLine_signed, inLine_number, inLine_hex, inLine_flag, inLine_pointer,
      hclass, hshown, and_true]
    and_intros <;> exact inLine_of_all rfl

section

variable (multiByteToWide : UInt32 → List UInt8 → Option (List UInt16))

theorem isLineOf_preeditText (cp : UInt32) (p : Option PreeditState) :
    IsLineOf "PREEDIT_RET " (preeditText multiByteToWide cp p) := by
  cases p with
  | none => exact ⟨encode "err=no_himc", rfl, inLine_of_all rfl⟩
  | some p =>
      have hkind : encode "PREEDIT_RET compBytes=" = encode "PREEDIT_RET " ++ encode "compBytes=" := rfl
      have hlast : encode "]\n" = encode "]" ++ [newline] := rfl
      simp only [preeditText, hlast]
      rw [← List.append_assoc]
      apply isLineOf_of_inLine
      · rw [hkind]
        simp only [List.append_assoc]
        exact List.prefix_append _ _
      · simp only [inLine_append, inLine_signed, inLine_decoded, and_true]
        and_intros <;> exact inLine_of_all rfl

theorem inLine_traceKey (s : State) : InLine (traceKey s) := by
  simp only [traceKey, inLine_append, inLine_signed, inLine_number, inLine_hex, and_true]
  and_intros <;> exact inLine_of_all rfl

theorem inLine_traceComp (cp : UInt32) (comp reading : Int × List UInt16) :
    InLine (traceComp multiByteToWide cp comp reading) := by
  simp only [traceComp, inLine_append, inLine_signed, inLine_decoded, and_true]
  and_intros <;> exact inLine_of_all rfl

theorem inLine_traceLists (counts : UInt32 × UInt32) (cand : CandList) :
    InLine (traceLists counts cand) := by
  simp only [traceLists, inLine_append, inLine_number, and_true]
  and_intros <;> exact inLine_of_all rfl

theorem inLine_traceText {label : List UInt8} (hlabel : InLine label) (s : State) (t : TraceState) :
    InLine (traceText multiByteToWide label s t) := by
  simp only [traceText, inLine_append]
  exact ⟨⟨⟨hlabel, inLine_traceKey s⟩, inLine_traceComp _ _ _ _⟩, inLine_traceLists _ _⟩

theorem inLine_asciiLabel (c : UInt8) : InLine (asciiLabel c) := by
  unfold asciiLabel
  split
  · exact inLine_of_all rfl
  · split
    · next hprint =>
        rw [Bool.and_eq_true, isPrint, Bool.and_eq_true, decide_eq_true_eq] at hprint
        intro byte hbyte
        rw [List.mem_singleton.mp hbyte]
        have hlow : 0x20 ≤ c.toNat := UInt8.le_iff_toNat_le.mp hprint.1.1
        refine ⟨?_, ?_, ?_⟩
        all_goals
          rintro rfl
          exact absurd hlow (by decide)
    · rw [inLine_append]
      exact ⟨inLine_of_all rfl, inLine_upperHex _ _⟩

theorem inLine_keyLabelFromWideChar (wc : UInt16) : InLine (keyLabelFromWideChar wc) := by
  have hcode : InLine (encode "U+" ++ upperHex 4 wc.toNat) :=
    inLine_append.mpr ⟨inLine_of_all rfl, inLine_upperHex _ _⟩
  unfold keyLabelFromWideChar
  simp only
  split
  · exact inLine_of_all rfl
  · split
    · exact hcode
    · split
      · exact inLine_clean ((clean_utf8FromWide _ _).take _)
      · exact hcode

theorem mem_intersperse {sep x : List UInt8} (texts : List (List UInt8))
    (hx : x ∈ texts.intersperse sep) : x = sep ∨ x ∈ texts := by
  induction texts with
  | nil => cases hx
  | cons text texts ih =>
      cases texts with
      | nil => exact Or.inr hx
      | cons next texts =>
          rw [List.intersperse_cons_cons, List.mem_cons, List.mem_cons] at hx
          rcases hx with rfl | rfl | hx
          · exact Or.inr List.mem_cons_self
          · exact Or.inl rfl
          · exact (ih hx).imp_right fun h => List.mem_cons_of_mem text h

theorem isLineOf_traceReply (s : State) {steps : List (List UInt8)}
    (hsteps : ∀ step ∈ steps, InLine step) :
    IsLineOf "TRACE_RET "
      ([traceHeader s] ++ steps.intersperse (encode ";") ++ [encode "\n"]).flatten := by
  have hheader : InLine (traceHeader s) := by
    simp only [traceHeader, inLine_append, inLine_number, and_true]
    and_intros <;> exact inLine_of_all rfl
  have hkind : encode "TRACE_RET cp=" = encode "TRACE_RET " ++ encode "cp=" := rfl
  have hbegins : encode "TRACE_RET " <+: traceHeader s := by
    rw [traceHeader, hkind, List.append_assoc, List.append_assoc]
    exact List.prefix_append _ _
  have hbody : InLine (steps.intersperse (encode ";")).flatten := by
    apply inLine_flatten.mpr
    intro step hstep
    rcases mem_intersperse steps hstep with rfl | hstep
    · exact inLine_of_all rfl
    · exact hsteps step hstep
  rw [List.flatten_append, List.flatten_append, List.flatten_singleton, List.flatten_singleton]
  apply isLineOf_of_inLine
  · exact hbegins.trans (List.prefix_append _ _)
  · exact inLine_append.mpr ⟨hheader, hbody⟩

theorem begins_replyTexts (host : CandidateReply.Host) (himc : Option CandidateReply.ImeState) :
    encode "CAND_RET " <+: (CandidateReply.replyTexts multiByteToWide host himc).flatten := by
  cases himc with
  | none => exact ⟨encode "err=no_himc\n", rfl⟩
  | some ime =>
      have hnone : encode "CAND_RET count=0 cp=" = encode "CAND_RET " ++ encode "count=0 cp=" := rfl
      have hsome : encode "CAND_RET cp=" = encode "CAND_RET " ++ encode "cp=" := rfl
      simp only [CandidateReply.replyTexts]
      split
      · rw [List.flatten_singleton, CandidateReply.noLists, hnone]
        simp only [List.append_assoc]
        exact List.prefix_append _ _
      · rw [CandidateReply.dataPieces, CandidateReply.header, hsome]
        simp only [List.append_assoc, List.flatten_append, List.flatten_singleton]
        exact List.prefix_append _ _

end

theorem inLine_convToken {s : List UInt8} (h : 0 ∉ s) : InLine (convToken s) := by
  intro byte hbyte
  obtain ⟨old, hold, rfl⟩ := List.mem_map.mp hbyte
  split
  · exact ⟨by decide, by decide, by decide⟩
  · next hmark =>
      simp only [Bool.or_eq_true, decide_eq_true_eq, not_or] at hmark
      refine ⟨?_, hmark.2, hmark.1.2⟩
      rintro rfl
      exact h hold

theorem inLine_convItem (cand : CandList) (i : Nat) : InLine (convItem cand i) := by
  apply inLine_convToken
  split
  · exact fun h => (inLine_of_all (s := encode "<conv_err>") rfl 0 h).1 rfl
  · exact not_mem_cString _

theorem isLineOf_convPieces (cand : CandList) : IsLineOf "CONV_RET " (convPieces cand).flatten := by
  have hkind : encode "CONV_RET count=" = encode "CONV_RET " ++ encode "count=" := rfl
  have hitem (i : Nat) : InLine (if cand.size ≤ cand.dwOffset i then []
      else (if 0 < i then [encode "|"] else []) ++ [convItem cand i] : List (List UInt8)).flatten := by
    split
    · exact fun _ h => by cases h
    · rw [List.flatten_append, List.flatten_singleton, inLine_append]
      refine ⟨?_, inLine_convItem cand i⟩
      split
      · exact inLine_of_all rfl
      · exact fun _ h => by cases h
  have hmore : InLine (if 10 < cand.dwCount then [encode "|..."] else [] : List (List UInt8)).flatten := by
    split
    · exact inLine_of_all rfl
    · exact fun _ h => by cases h
  have hlast : encode "]\n" = encode "]" ++ [newline] := rfl
  rw [convPieces, List.flatten_append, List.flatten_append, List.flatten_append, List.flatten_singleton,
    List.flatten_singleton, hlast, ← List.append_assoc]
  apply isLineOf_of_inLine
  · rw [hkind]
    simp only [List.append_assoc]
    exact List.prefix_append _ _
  · simp only [inLine_append, inLine_number, hmore, and_true]
    and_intros
    any_goals exact inLine_of_all rfl
    rw [List.flatMap_def, List.flatten_flatten]
    apply inLine_flatten.mpr
    intro text htext
    rw [List.map_map, List.mem_map] at htext
    obtain ⟨i, -, rfl⟩ := htext
    exact hitem i

def Command.replyKinds : Command → List String
  | .ping => ["PONG"]
  | .status => ["STATUS "]
  | .cp _ => ["OK CP ", "ERR bad codepage"]
  | .preedit => ["PREEDIT_RET "]
  | .trace _ _ | .traceUtf8 _ _ => ["TRACE_RET "]
  | .pick _ => ["CAND_RET ", "ERR bad pick"]
  | .commit => ["OK COMMIT notify="]
  | .conv _ => ["CONV_RET "]
  | .key _ => ["KEY_RET ", "ERR bad key"]
  | .keychord _ => ["KEY_RET ", "ERR bad keychord"]
  | .reset => ["OK RESET", "ERR RESET "]
  | .activate => ["OK ACTIVATE"]
  | .quit => ["BYE"]
  | .unknown => ["ERR unknown command"]
  | _ => ["CAND_RET "]

theorem isKind_of_mem (command : Command) : ∀ kind ∈ command.replyKinds, IsKind kind := by
  have hall : command.replyKinds.all (fun kind => decide ((encode kind).length < 100) &&
      (encode kind).all (fun byte => byte ≠ 0 && (byte ≠ newline && byte ≠ carriageReturn))) = true := by
    cases command <;> rfl
  intro kind hmem
  have hkind := List.all_eq_true.mp hall kind hmem
  rw [Bool.and_eq_true, decide_eq_true_eq] at hkind
  refine ⟨inLine_of_all hkind.2, ?_⟩
  rw [length_replyBuffer]
  omega

section

variable {multiByteToWide : UInt32 → List UInt8 → Option (List UInt16)} {os : Os}
  {kinds : List String}

theorem isKind_cand : IsKind "CAND_RET " := isKind_of_mem .cand _ List.mem_cons_self

theorem isKind_trace : IsKind "TRACE_RET " := isKind_of_mem (.trace true []) _ List.mem_cons_self

theorem isKind_conv : IsKind "CONV_RET " := isKind_of_mem (.conv []) _ List.mem_cons_self

theorem isKind_key : IsKind "KEY_RET " := isKind_of_mem (.key []) _ List.mem_cons_self

variable (multiByteToWide) in
theorem isLineOf_replyTexts (host : CandidateReply.Host) (ime : Option CandidateReply.ImeState) :
    IsLineOf "CAND_RET " (CandidateReply.replyTexts multiByteToWide host ime).flatten := by
  obtain ⟨body, hwhole, hbody⟩ := CandidateReply.replyTexts_eq multiByteToWide host ime
  have hbegins := begins_replyTexts multiByteToWide host ime
  rw [hwhole] at hbegins ⊢
  rcases List.prefix_concat_iff.mp hbegins with hsame | hbegins
  · have hnewline : newline ∈ encode "CAND_RET " := by
      rw [hsame]
      exact List.mem_append_right _ List.mem_cons_self
    exact absurd rfl (isKind_cand.1 newline hnewline).2.1
  · exact isLineOf_of_inLine hbegins hbody

theorem yields_candidateReply (hmem : "CAND_RET " ∈ kinds) (ime : Option CandidateReply.ImeState) :
    Yields (IsReply kinds) (candidateReply multiByteToWide ime) := by
  intro w
  have hline := isLineOf_replyTexts multiByteToWide w.state.candidates ime
  obtain ⟨host, mem, hbuild, hlen, hprinted⟩ := CandidateReply.buildCandidateReply_printed
    multiByteToWide w.state.candidates ime length_replyBuffer_pos
  have hreply : (candidateReply multiByteToWide ime w).1 = cString
      ((CandidateReply.buildCandidateReply multiByteToWide w.state.candidates ime replyBuffer).getD
        (w.state.candidates, [])).2 := rfl
  rw [hreply, hbuild, Option.getD_some, cString_printed hprinted (nul_not_mem isKind_cand hline), hlen]
  exact isReply_take hmem isKind_cand hline

theorem yields_snapshot (hmem : "CAND_RET " ∈ kinds) :
    Yields (IsReply kinds) (replyWithCandidateSnapshot multiByteToWide os) := by
  refine Yields.last fun active => Yields.last fun ime => ?_
  exact Yields.bind (yields_candidateReply hmem ime) fun reply hreply =>
    Yields.last fun _ => Yields.pure hreply

theorem yields_runKeyAndReplyCand (hmem : "CAND_RET " ∈ kinds) (vk : UInt32) :
    Yields (IsReply kinds) (runKeyAndReplyCand multiByteToWide os vk) :=
  Yields.last fun _ => yields_snapshot hmem

theorem yields_runText {α : Type} (hmem : "CAND_RET " ∈ kinds)
    (type : Handle → α → Run (Option Unit)) (text : List α) (trigger : Bool) :
    Yields (IsReply kinds) (runText multiByteToWide os type text trigger) := by
  refine Yields.last fun _ => Yields.last fun hkl => Yields.last fun _ => ?_
  exact Yields.last fun _ => yields_snapshot hmem

theorem yields_preferringUnicode {α : Type} {P : α → Prop} {x : Run α} (hx : Yields P x) :
    Yields P (preferringUnicode x) := by
  refine Yields.last fun s => Yields.last fun _ => ?_
  exact Yields.bind hx fun a ha => Yields.last fun _ => Yields.pure ha

theorem isReply_badUtf8 (hmem : "CAND_RET " ∈ kinds) : IsReply kinds (printed badUtf8) :=
  isReply_printed hmem isKind_cand ⟨encode "err=bad_utf8", rfl, inLine_of_all rfl⟩

theorem yields_runTextUtf8 (hmem : "CAND_RET " ∈ kinds) (text : List UInt8) (trigger pump : Bool) :
    Yields (IsReply kinds) (runTextUtf8 multiByteToWide os text trigger pump) := by
  unfold runTextUtf8
  split
  · exact yields_preferringUnicode (yields_runText hmem _ _ trigger)
  · exact Yields.pure (isReply_badUtf8 hmem)

theorem yields_runKeytextUtf8 (hmem : "CAND_RET " ∈ kinds) (text : List UInt8) (trigger : Bool) :
    Yields (IsReply kinds) (runKeytextUtf8 multiByteToWide os text trigger) := by
  unfold runKeytextUtf8
  split
  · exact yields_runText hmem _ _ trigger
  · exact Yields.pure (isReply_badUtf8 hmem)

theorem yields_appendTraceStep {label : List UInt8} (hlabel : InLine label) :
    Yields InLine (appendTraceStep multiByteToWide os label) := by
  refine Yields.last fun active => Yields.last fun t => Yields.last fun s => ?_
  exact Yields.last fun _ => Yields.pure (inLine_traceText multiByteToWide hlabel s _)

/-- A step, if there is one. -/
def StepInLine (step : Option (List UInt8)) : Prop := ∀ text ∈ step, InLine text

theorem yields_traceAscii (hkl : Handle) (c : UInt8) :
    Yields StepInLine (traceAscii multiByteToWide os hkl c) := by
  refine Yields.last fun chord => Yields.ite (fun _ => ?_) fun _ => Yields.pure fun _ h => by cases h
  refine Yields.last fun _ => Yields.last fun _ => ?_
  refine Yields.bind (yields_appendTraceStep (inLine_asciiLabel c)) fun step hstep => ?_
  apply Yields.pure
  rintro text htext
  rw [Option.mem_some] at htext
  rwa [← htext]

theorem yields_traceWide (hkl : Handle) (wc : UInt16) :
    Yields StepInLine (traceWide multiByteToWide os hkl wc) := by
  refine Yields.last fun chord => Yields.ite (fun _ => ?_) fun _ => Yields.pure fun _ h => by cases h
  refine Yields.last fun _ => Yields.last fun _ => Yields.last fun _ => ?_
  refine Yields.bind (yields_appendTraceStep (inLine_keyLabelFromWideChar wc)) fun step hstep => ?_
  apply Yields.pure
  rintro text htext
  rw [Option.mem_some] at htext
  rwa [← htext]

theorem yields_typeChars {α : Type} {limit : Nat} {type : α → Run (Option (List UInt8))}
    (htype : ∀ c, Yields StepInLine (type c)) (text : List α) {done : List (List UInt8)}
    (hdone : ∀ step ∈ done, InLine step) :
    Yields (fun steps => ∀ step ∈ steps, InLine step) (typeChars limit type text done) := by
  induction text generalizing done with
  | nil => exact Yields.pure hdone
  | cons c text ih =>
      refine Yields.ite (fun _ => ?_) fun _ => Yields.pure hdone
      refine Yields.bind (htype c) fun step hstep => ?_
      cases step with
      | none => exact ih hdone
      | some step =>
          apply ih
          intro other hother
          rcases List.mem_append.mp hother with hother | hother
          · exact hdone other hother
          · rw [List.mem_singleton.mp hother]
            exact hstep step rfl

theorem yields_traceTrigger (trigger : Bool) {steps : List (List UInt8)}
    (hsteps : ∀ step ∈ steps, InLine step) :
    Yields (fun steps => ∀ step ∈ steps, InLine step)
      (traceTrigger multiByteToWide os trigger steps) := by
  refine Yields.ite (fun _ => Yields.last fun _ => ?_) fun _ => Yields.pure hsteps
  refine Yields.bind (yields_appendTraceStep (inLine_of_all rfl)) fun last hlast => ?_
  apply Yields.pure
  intro step hstep
  rcases List.mem_append.mp hstep with hstep | hstep
  · exact hsteps step hstep
  · rw [List.mem_singleton.mp hstep]
    exact hlast

theorem isReply_traceReply (hmem : "TRACE_RET " ∈ kinds) (s : State) {steps : List (List UInt8)}
    (hsteps : ∀ step ∈ steps, InLine step) : IsReply kinds (traceReply s steps) := by
  unfold traceReply
  split
  · exact isReply_printed hmem isKind_trace ⟨encode "err=no_mapped_keys", rfl, inLine_of_all rfl⟩
  · exact isReply_appended hmem isKind_trace (isLineOf_traceReply s hsteps)

theorem yields_runTrace {α : Type} [DecidableEq α] (hmem : "TRACE_RET " ∈ kinds)
    {type : Handle → α → Run (Option (List UInt8))}
    (htype : ∀ hkl c, Yields StepInLine (type hkl c)) (text : List α) (trigger : Bool) :
    Yields (IsReply kinds) (runTrace multiByteToWide os type text trigger) := by
  refine Yields.ite (fun _ => ?_) fun _ => ?_
  · exact Yields.pure
      (isReply_printed hmem isKind_trace ⟨encode "err=empty", rfl, inLine_of_all rfl⟩)
  · refine Yields.last fun _ => Yields.last fun hkl => Yields.last fun s => ?_
    refine Yields.bind (yields_typeChars (htype hkl) text fun _ h => by cases h) fun steps hsteps => ?_
    refine Yields.bind (yields_traceTrigger trigger hsteps) fun steps hsteps => ?_
    exact Yields.pure (isReply_traceReply hmem s hsteps)

theorem yields_runTraceUtf8 (hmem : "TRACE_RET " ∈ kinds) (text : List UInt8) (trigger : Bool) :
    Yields (IsReply kinds) (runTraceUtf8 multiByteToWide os text trigger) := by
  unfold runTraceUtf8
  split
  · exact yields_preferringUnicode (yields_runTrace hmem yields_traceWide _ trigger)
  · exact Yields.pure
      (isReply_printed hmem isKind_trace ⟨encode "err=bad_utf8", rfl, inLine_of_all rfl⟩)

theorem isReply_convReply (hmem : "CONV_RET " ∈ kinds) (cand : CandList) :
    IsReply kinds (convReply cand) := by
  unfold convReply
  split
  · exact isReply_whole hmem isKind_conv ⟨encode "count=0 bytes=0", rfl, inLine_of_all rfl⟩ (by decide)
  · split
    · exact isReply_whole hmem isKind_conv ⟨encode "err=oom", rfl, inLine_of_all rfl⟩ (by decide)
    · split
      · exact isReply_whole hmem isKind_conv ⟨encode "err=read_fail", rfl, inLine_of_all rfl⟩ (by decide)
      · exact isReply_appended hmem isKind_conv (isLineOf_convPieces cand)

/-- There is something to convert, or else a reply that says why not. -/
def SourceOrReply (kinds : List String) : Except (List UInt8) (List UInt16) → Prop
  | .ok _ => True
  | .error reply => IsReply kinds reply

theorem isReply_noSource (hmem : "CONV_RET " ∈ kinds) :
    IsReply kinds (encode "CONV_RET err=no_source\n") :=
  isReply_whole hmem isKind_conv ⟨encode "err=no_source", rfl, inLine_of_all rfl⟩ (by decide)

theorem yields_convSource (hmem : "CONV_RET " ∈ kinds) (himc : Handle) (arg : List UInt8) :
    Yields (SourceOrReply kinds) (convSource multiByteToWide os himc arg) := by
  refine Yields.ite (fun _ => ?_) fun _ => ?_
  · split
    · apply Yields.pure
      split
      · exact isReply_noSource hmem
      · trivial
    · exact Yields.pure
        (isReply_whole hmem isKind_conv ⟨encode "err=bad_text", rfl, inLine_of_all rfl⟩ (by decide))
  · refine Yields.last fun comp => Yields.ite (fun _ => Yields.pure trivial) fun _ => ?_
    exact Yields.pure (isReply_noSource hmem)

theorem yields_convert (hmem : "CONV_RET " ∈ kinds) (himc : Handle) (arg : List UInt8) :
    Yields (IsReply kinds) (convert multiByteToWide os himc arg) := by
  refine Yields.last fun s => Yields.ite (fun _ => ?_) fun _ => ?_
  · exact Yields.pure
      (isReply_whole hmem isKind_conv ⟨encode "err=unsupported", rfl, inLine_of_all rfl⟩ (by decide))
  · refine Yields.bind (yields_convSource hmem himc _) fun source hsource => ?_
    cases source with
    | ok source => exact Yields.last fun cand => Yields.pure (isReply_convReply hmem cand)
    | error reply => exact Yields.pure hsource

theorem yields_runConv (hmem : "CONV_RET " ∈ kinds) (arg : List UInt8) :
    Yields (IsReply kinds) (runConv multiByteToWide os arg) := by
  refine Yields.last fun active => Yields.bind (yields_convert hmem _ arg) fun reply hreply => ?_
  exact Yields.last fun _ => Yields.pure hreply

theorem yields_runPreedit : Yields (IsReply Command.preedit.replyKinds) (runPreedit multiByteToWide os) := by
  refine Yields.last fun active => Yields.last fun p => Yields.last fun s => Yields.last fun _ => ?_
  exact Yields.pure (isReply_printed List.mem_cons_self
    (isKind_of_mem .preedit _ List.mem_cons_self) (isLineOf_preeditText multiByteToWide _ p))

theorem yields_runCommit : Yields (IsReply Command.commit.replyKinds) (runCommit os) := by
  refine Yields.last fun active => Yields.last fun _ => Yields.last fun s => Yields.last fun _ => ?_
  exact Yields.pure (isReply_printed List.mem_cons_self
    (isKind_of_mem .commit _ List.mem_cons_self) (isLineOf_okCommit _))

theorem isReply_okCp (arg : List UInt8) (cp : UInt32) :
    IsReply (Command.cp arg).replyKinds (printed (okCp cp)) :=
  isReply_printed List.mem_cons_self (isKind_of_mem (.cp arg) _ List.mem_cons_self) (isLineOf_okCp cp)

theorem isReply_first {command : Command} {first : String} {others : List String}
    (hkinds : command.replyKinds = first :: others) {text : List UInt8}
    (htext : text = encode first ++ [newline]) : IsReply command.replyKinds text := by
  have hmem : first ∈ command.replyKinds := by
    rw [hkinds]
    exact List.mem_cons_self
  exact isReply_literal hmem (isKind_of_mem command first hmem) htext

/-- A literal that is the second of the replies. -/
theorem isReply_second {command : Command} {first second : String}
    (hkinds : command.replyKinds = [first, second]) {text : List UInt8}
    (htext : text = encode second ++ [newline]) : IsReply command.replyKinds text := by
  have hmem : second ∈ command.replyKinds := by
    rw [hkinds]
    exact List.mem_cons_of_mem _ List.mem_cons_self
  exact isReply_literal hmem (isKind_of_mem command second hmem) htext

theorem yields_runCp (arg : List UInt8) : Yields (IsReply (Command.cp arg).replyKinds) (runCp arg) := by
  refine Yields.last fun s => Yields.ite (fun _ => Yields.pure (isReply_okCp arg _)) fun _ => ?_
  split
  · exact Yields.last fun _ => Yields.pure (isReply_okCp arg _)
  · exact Yields.pure (isReply_second rfl rfl)

theorem yields_runPick (arg : List UInt8) :
    Yields (IsReply (Command.pick arg).replyKinds) (runPick multiByteToWide os arg) := by
  unfold runPick
  split
  · refine Yields.ite (fun _ => Yields.pure (isReply_second rfl rfl)) fun _ => ?_
    exact yields_runKeyAndReplyCand List.mem_cons_self _
  · exact Yields.pure (isReply_second rfl rfl)

theorem yields_handleKeyModInternal (k : KeyChord) (activateFirst : Bool) :
    Yields (IsLineOf "KEY_RET ") (handleKeyModInternal os k activateFirst) := by
  refine Yields.last fun state => Yields.last fun _ => Yields.last fun s => ?_
  refine Yields.last fun struck => Yields.last fun _ => Yields.last fun s => ?_
  exact Yields.pure (isLineOf_keyReply s _ _)

theorem yields_runKey (arg : List UInt8) :
    Yields (IsReply (Command.key arg).replyKinds) (runKey os arg) := by
  unfold runKey
  split
  · exact Yields.bind (yields_handleKeyModInternal _ _) fun reply hreply =>
      Yields.pure (isReply_printed List.mem_cons_self isKind_key hreply)
  · exact Yields.pure (isReply_second rfl rfl)

theorem yields_runKeychord (arg : List UInt8) :
    Yields (IsReply (Command.keychord arg).replyKinds) (runKeychord os arg) := by
  unfold runKeychord
  split
  · exact Yields.bind (yields_handleKeyModInternal _ _) fun reply hreply =>
      Yields.pure (isReply_printed List.mem_cons_self isKind_key hreply)
  · exact Yields.pure (isReply_second rfl rfl)

end

end RimeWinime.ImeHost
