import RimeWinime.Skeleton.Frame
import RimeWinime.Skeleton.Process

namespace RimeWinime.ImeHost

open World Outside
open CString (cString)
open Utf8 (encode)

/-- The state without the notes, and without what comes with the own context. -/
def State.lasting (s : State) : State :=
  { s.core with himc := 0, fdwProperty := 0, uiClass := [], lastError := [] }

/-- What a command does to the settings: all that is to be known of it from one command to
the next. -/
def Command.effect (s : State) : Command → State
  | .cp arg => { s with candCodepage := (codepageOf (skipBlanks arg)).getD s.candCodepage }
  | .quit => { s with running := false }
  | _ => s

section

variable {α : Type} {multiByteToWide : UInt32 → List UInt8 → Option (List UInt16)}
  {narrow : List UInt16 → List UInt8} {os : Os}

abbrev settings (w : Program State Call.Answer) : State := w.state.lasting

abbrev kept (w : Program State Call.Answer) : State × Wire := (settings w, wire w)

theorem lasting_of_core {s s' : State} (h : s.core = s'.core) : s.lasting = s'.lasting := by
  rw [State.lasting, h, ← State.lasting]

theorem kept_of_seen {x : Run α} (hx : Steady seen x) : Steady kept x := by
  intro w
  have hseen := hx w
  rw [seen_eq, seen_eq, Prod.mk.injEq, Prod.mk.injEq] at hseen
  exact Prod.ext (lasting_of_core hseen.1) hseen.2.2

theorem kept_ask {q : Call} (h : ∀ n a, carry n ⟨q, a⟩ = n) : Steady kept (ask os q) :=
  fun w => Prod.ext rfl ((tally_ask carry _ q w).trans (h _ _))

theorem kept_modify {f : State → State} (h : ∀ s, (f s).lasting = s.lasting) :
    Steady kept (modify f : Run Unit) := fun w => Prod.ext (h w.state) rfl

theorem kept_createContext : Steady kept (createContext os) := by
  refine Steady.bind (kept_ask fun _ _ => rfl) fun himc => ?_
  refine Steady.bind (kept_modify fun _ => rfl) fun _ => Steady.ite ?_ (Steady.pure _)
  exact Steady.bind (kept_modify fun _ => rfl) fun _ => Steady.pure _

theorem kept_associate : Steady kept (associate os) := by
  refine Steady.bind (fun _ => rfl) fun s => ?_
  refine Steady.bind (kept_ask fun _ _ => rfl) fun assocPrev => ?_
  refine Steady.bind (kept_modify fun _ => rfl) fun _ => ?_
  refine Steady.bind (kept_ask fun _ _ => rfl) fun _ => ?_
  refine Steady.bind (kept_ask fun _ _ => rfl) fun _ => ?_
  refine Steady.bind (kept_ask fun _ _ => rfl) fun _ => ?_
  refine Steady.bind (kept_ask fun _ _ => rfl) fun _ => ?_
  exact Steady.bind (kept_ask fun _ _ => rfl) fun _ => kept_modify fun _ => rfl

theorem kept_resetContext : Steady kept (resetContext os) := by
  have hdestroy : Steady kept (destroyContext os) := by
    refine Steady.bind (fun _ => rfl) fun s => steady_when ?_
    refine Steady.bind (kept_ask fun _ _ => rfl) fun _ => ?_
    refine Steady.bind (kept_ask fun _ _ => rfl) fun _ => ?_
    exact Steady.bind (kept_ask fun _ _ => rfl) fun _ => kept_modify fun _ => rfl
  refine Steady.bind hdestroy fun _ => Steady.bind (kept_modify fun _ => rfl) fun _ => ?_
  refine Steady.bind (Steady.bind (fun _ => rfl) fun s => ?_) fun ok => Steady.ite ?_ (Steady.pure _)
  · exact Steady.ite kept_createContext (Steady.pure _)
  · refine Steady.bind kept_associate fun _ => ?_
    exact Steady.bind (kept_of_seen (steady_activateImePath os)) fun _ => Steady.pure _

theorem kept_runCp (arg : List UInt8) (w : Program State Call.Answer) :
    kept (runCp arg w).2 = ((Command.cp arg).effect (settings w), wire w) := by
  have heffect : (Command.cp arg).effect (settings w) = { settings w with
      candCodepage := (codepageOf (skipBlanks arg)).getD w.state.candCodepage } := rfl
  rw [heffect, runCp, bind_run]
  by_cases harg : skipBlanks arg = []
  · rw [if_pos harg, harg]
    rfl
  · rw [if_neg harg]
    cases codepageOf (skipBlanks arg) with
    | some cp => rfl
    | none => rfl

theorem kept_perform (command : Command) (w : Program State Call.Answer) (h : command ≠ .quit) :
    kept (perform multiByteToWide narrow os command w).2 = (command.effect (settings w), wire w) := by
  cases hchanges : command.changes with
  | false =>
      have hsame := kept_of_seen (steady_perform multiByteToWide os narrow hchanges) w
      rw [hsame]
      cases command <;> first | rfl | exact absurd rfl h | cases hchanges
  | true =>
      cases command with
      | cp arg => exact kept_runCp arg w
      | reset =>
          refine (Steady.bind kept_resetContext fun ok => Steady.ite (Steady.pure _) ?_) w
          exact Steady.bind (fun _ => rfl) fun _ => Steady.pure _
      | _ => cases hchanges

theorem wire_perform (command : Command) (w : Program State Call.Answer) :
    wire (perform multiByteToWide narrow os command w).2 = wire w := by
  by_cases hquit : command = .quit
  · subst hquit
    rfl
  · exact congrArg Prod.snd (kept_perform command w hquit)

theorem same_sendText (text : List UInt8) :
    Steady Program.state (sendText os text : Run Bool) := by
  unfold sendText
  generalize text.length = calls
  induction calls generalizing text with
  | zero =>
      cases text with
      | nil => exact Steady.pure _
      | cons byte text => exact Steady.pure _
  | succ calls ih =>
      cases text with
      | nil => exact Steady.pure _
      | cons byte text =>
          refine Steady.bind (fun _ => rfl) fun s => ?_
          exact Steady.bind (fun _ => rfl) fun n => Steady.ite (Steady.pure _) (ih _)

theorem settings_processCommand (line : List UInt8) (w : Program State Call.Answer) :
    settings (processCommand multiByteToWide narrow os line w).2 =
      (commandOf (cString line)).effect (settings w) := by
  generalize hcommand : commandOf (cString line) = command
  let done := (perform multiByteToWide narrow os command w).2
  let told := (sendText os (perform multiByteToWide narrow os command w).1 done).2
  have hrun : (processCommand multiByteToWide narrow os line w).2 =
      (when (command = .quit) (modify fun s => { s with running := false }) told).2 := by
    rw [processCommand, hcommand]
    rfl
  have htold : settings told = settings done := congrArg State.lasting (same_sendText _ done)
  rw [hrun]
  by_cases hquit : command = .quit
  · rw [when_pos hquit]
    have hstopped : settings (modify (fun s : State => { s with running := false }) told).2 =
        { settings told with running := false } := rfl
    rw [hstopped, htold]
    subst hquit
    rfl
  · rw [when_neg hquit, pure_run, htold]
    exact congrArg Prod.fst (kept_perform command w hquit)

variable (multiByteToWide) (narrow) (os) in
/-- Whatever the input method does in between, the windows, the sockets, the buffer, the exports
and the preference for Unicode are after any commands what they were. The code page is the last
one that was set, and the host runs until it is told to quit. -/
theorem settings_runLines (lines : List (List UInt8)) (w : Program State Call.Answer) :
    settings (runLines multiByteToWide narrow os lines w).2 =
      (lines.map (fun line => commandOf (cString line))).foldl Command.effect (settings w) := by
  induction lines generalizing w with
  | nil => rfl
  | cons line lines ih =>
      have hrun : (runLines multiByteToWide narrow os (line :: lines) w).2 =
          (runLines multiByteToWide narrow os lines
            (processCommand multiByteToWide narrow os line w).2).2 := rfl
      rw [hrun, ih, List.map_cons, List.foldl_cons, settings_processCommand]

end

end RimeWinime.ImeHost
