import RimeWinime.Win32Proxy.Pending

namespace RimeWinime.Win32Proxy

open World Outside
open Lines (cut complete openLine complete_append openLine_append cut_of_not_mem cut_append cut_newline)
open Utf8 (encode)

section

variable {host : Host} {os : Os} {unread : List Line} {w : Program State Call.Answer}

theorem Waiting.of_same (h : Waiting host unread w) {w' : Program State Call.Answer}
    (hlink : link w' = link w) (hrx : w'.state.rx = w.state.rx) : Waiting host unread w' := by
  obtain ⟨⟨read, htold, hheard⟩, hobeyed⟩ := h
  have hlines : lines w' = lines w := by rw [lines, hlink]
  refine ⟨⟨read, ?_, ?_⟩, ?_⟩
  · rw [hlines]
    exact htold
  · rw [hlink, hrx]
    exact hheard
  · rw [hlink, hlines]
    exact hobeyed

/-- What reading leaves as it is. -/
abbrev outgoing (w : Program State Call.Answer) : Int × Nat × List UInt8 :=
  (w.state.fd, (link w).opened, (link w).sent)

theorem outgoing_recv (fd : Int) : Steady outgoing (ask os (.recv fd)) := by
  intro w
  rw [outgoing, link_ask]
  rfl

theorem outgoing_readLineUnlocked (reads : Nat) : Steady outgoing (readLineUnlocked os reads) := by
  induction reads with
  | zero => exact Steady.pure _
  | succ reads ih =>
      refine Steady.bind (fun _ => rfl) fun s => ?_
      split
      · exact Steady.bind (fun _ => rfl) fun _ => Steady.pure _
      · refine Steady.bind (outgoing_recv _) fun bytes => ?_
        exact Steady.ite (Steady.pure _) (Steady.bind (fun _ => rfl) fun _ => ih)

variable (os) in
theorem outgoing_receive (patience : Nat) (expected : String) (turns : Nat) :
    Steady outgoing (receive os patience expected turns) := by
  induction turns with
  | zero => exact Steady.pure _
  | succ turns ih =>
      refine Steady.bind (outgoing_readLineUnlocked patience) fun line => ?_
      cases line with
      | some line => exact Steady.ite (Steady.pure _) ih
      | none => exact Steady.pure _

theorem readLine_some (reads : Nat) {line : Line} {rest : List UInt8}
    (h : takeLine w.state.rx = some (line, rest)) :
    readLineUnlocked os (reads + 1) w =
      (some (chomp line), (modify (fun s : State => { s with rx := rest }) w).2) := by
  simp only [readLineUnlocked, bind_run, get_run, h]
  rfl

theorem readLine_none (reads : Nat) (h : takeLine w.state.rx = none) :
    readLineUnlocked os (reads + 1) w =
      (if (ask os (.recv w.state.fd) w).1 = [] then pure none
        else modify (fun s => { s with rx := s.rx ++ (ask os (.recv w.state.fd) w).1 }) >>=
          fun _ => readLineUnlocked os reads : Run (Option Line)) (ask os (.recv w.state.fd) w).2 := by
  simp only [readLineUnlocked, bind_run, get_run, h]

theorem readLine_waiting (hos : Obeys host os) (reads : Nat) (h : Waiting host unread w) :
    ((readLineUnlocked os reads w).1 = none ∧ Waiting host unread (readLineUnlocked os reads w).2) ∨
      ∃ raw unread', unread = raw :: unread' ∧ (readLineUnlocked os reads w).1 = some (chomp raw) ∧
        Waiting host unread' (readLineUnlocked os reads w).2 := by
  induction reads generalizing w with
  | zero => exact Or.inl ⟨rfl, h⟩
  | succ reads ih =>
      cases htake : takeLine w.state.rx with
      | some taken =>
          obtain ⟨unread', hunread, hwait⟩ := h.takeLine htake
          rw [readLine_some reads htake]
          exact Or.inr ⟨taken.1, unread', hunread, rfl, hwait⟩
      | none =>
          have hmore := h.recv hos w.state.fd
          rw [readLine_none reads htake]
          by_cases hbytes : (ask os (.recv w.state.fd) w).1 = []
          · rw [if_pos hbytes]
            refine Or.inl ⟨rfl, h.of_same ?_ rfl⟩
            rw [pure_run, link_ask, hbytes, carry, List.append_nil]
          · rw [if_neg hbytes]
            exact ih hmore

theorem receive_waiting (hos : Obeys host os) (patience : Nat) (expected : String) (turns : Nat)
    (h : Waiting host unread w) :
    ((receive os patience expected turns w).1 = none ∧
        ∃ left, left <:+ unread ∧ Waiting host left (receive os patience expected turns w).2) ∨
      ∃ skipped raw left, unread = skipped ++ raw :: left ∧
        (receive os patience expected turns w).1 = some (chomp raw) ∧
        isAnswer expected (chomp raw) = true ∧
        Waiting host left (receive os patience expected turns w).2 := by
  induction turns generalizing unread w with
  | zero => exact Or.inl ⟨rfl, unread, List.suffix_refl _, h⟩
  | succ turns ih =>
      have hrun : receive os patience expected (turns + 1) w =
          ((readLineUnlocked os patience w).1.elim (pure none) (fun line =>
            if isAnswer expected line then pure (some line) else receive os patience expected turns))
            (readLineUnlocked os patience w).2 := by
        rw [receive, bind_run]
        cases (readLineUnlocked os patience w).1 <;> rfl
      rw [hrun]
      rcases readLine_waiting hos patience h with ⟨hnone, hwait⟩ | ⟨raw, unread', rfl, hsome, hwait⟩
      · rw [hnone]
        exact Or.inl ⟨rfl, unread, List.suffix_refl _, hwait⟩
      · rw [hsome, Option.elim_some]
        by_cases hanswer : isAnswer expected (chomp raw) = true
        · rw [if_pos hanswer]
          exact Or.inr ⟨[], raw, unread', rfl, rfl, hanswer, hwait⟩
        · rw [if_neg hanswer]
          rcases ih hwait with ⟨hnone, left, hleft, hwait'⟩ | ⟨skipped, next, left, rfl, hrest⟩
          · exact Or.inl ⟨hnone, left, hleft.trans (List.suffix_cons raw unread'), hwait'⟩
          · exact Or.inr ⟨raw :: skipped, next, left, rfl, hrest⟩

theorem sent_part {part : List UInt8} (hpart : newline ∉ part) (sent : List UInt8) :
    complete newline (sent ++ part) = complete newline sent ∧
      openLine newline (sent ++ part) = openLine newline sent ++ part := by
  rw [complete_append, openLine_append, cut_of_not_mem hpart, List.append_nil]
  exact ⟨rfl, rfl⟩

theorem sent_whole {cmd : List UInt8} (hcmd : newline ∉ cmd) (sent : List UInt8) :
    complete newline (sent ++ (cmd ++ [newline])) =
        complete newline sent ++ [openLine newline sent ++ cmd] ∧
      openLine newline (sent ++ (cmd ++ [newline])) = [] := by
  rw [complete_append, openLine_append, cut_append, cut_of_not_mem hcmd, cut_newline]
  exact ⟨rfl, rfl⟩

theorem sendAll_sent (os : Os) (calls : Nat) (wire : List UInt8) (w : Program State Call.Answer) :
    ∃ out, out <+: wire ∧
      link (sendAll os calls wire w).2 = { link w with sent := (link w).sent ++ out } ∧
      (sendAll os calls wire w).2.state = w.state ∧
      ((sendAll os calls wire w).1 = true → out = wire) := by
  have hnone : link w = { link w with sent := (link w).sent ++ [] } := by rw [List.append_nil]
  induction calls generalizing wire w with
  | zero =>
      cases wire with
      | nil => exact ⟨[], List.nil_prefix, hnone, rfl, fun _ => rfl⟩
      | cons byte wire => exact ⟨[], List.nil_prefix, hnone, rfl, fun h => by cases h⟩
  | succ calls ih =>
      cases wire with
      | nil => exact ⟨[], List.nil_prefix, hnone, rfl, fun _ => rfl⟩
      | cons byte wire =>
          let q : Call := .send w.state.fd (byte :: wire)
          have hlink := link_ask os q w
          have hrun : sendAll os (calls + 1) (byte :: wire) w =
              (if (ask os q w).1 ≤ 0 then pure false
                else sendAll os calls ((byte :: wire).drop (ask os q w).1.toNat) : Run Bool)
                (ask os q w).2 := rfl
          rw [hrun]
          generalize hn : (ask os q w).1 = n at hlink ⊢
          by_cases hstop : n ≤ 0
          · rw [if_pos hstop]
            rw [carry, Int.toNat_of_nonpos hstop, List.take_zero] at hlink
            exact ⟨[], List.nil_prefix, hlink, rfl, fun h => by cases h⟩
          · rw [if_neg hstop]
            have hnext : link (ask os q w).2 =
                { link (ask os q w).2 with sent := (link (ask os q w).2).sent ++ [] } := by
              rw [List.append_nil]
            obtain ⟨out, hout, hsent, hstate, hall⟩ :=
              ih ((byte :: wire).drop n.toNat) (ask os q w).2 hnext
            refine ⟨(byte :: wire).take n.toNat ++ out, ?_, ?_, hstate, ?_⟩
            · have hboth := (List.prefix_append_right_inj ((byte :: wire).take n.toNat)).mpr hout
              rwa [List.take_append_drop] at hboth
            · rw [hsent, hlink, carry, List.append_assoc]
            · intro htrue
              rw [hall htrue, List.take_append_drop]

theorem Waiting.sentPart (h : Waiting host unread w) {part : List UInt8} (hpart : newline ∉ part)
    {w' : Program State Call.Answer} (hlink : link w' = { link w with sent := (link w).sent ++ part })
    (hstate : w'.state = w.state) :
    Waiting host unread w' ∧ lines w' = lines w ∧ begun w' = begun w ++ part := by
  obtain ⟨hcomplete, hopen⟩ := sent_part hpart (link w).sent
  have hlines : lines w' = lines w := by
    rw [lines, hlink]
    exact hcomplete
  obtain ⟨⟨read, htold, hheard⟩, hobeyed⟩ := h
  refine ⟨⟨⟨read, ?_, ?_⟩, ?_⟩, hlines, ?_⟩
  · rw [hlines]
    exact htold
  · rw [hlink, hstate]
    exact hheard
  · rw [hlines, hlink]
    exact hobeyed
  · rw [begun, hlink]
    exact hopen

/-- A line brings its answer after those that are unread. -/
theorem Waiting.sentWhole (h : Waiting host unread w) {cmd : List UInt8} (hcmd : newline ∉ cmd)
    {w' : Program State Call.Answer}
    (hlink : link w' = { link w with sent := (link w).sent ++ (cmd ++ [newline]) })
    (hstate : w'.state = w.state) :
    Waiting host (unread ++ [host.answer (lines w ++ [begun w ++ cmd])]) w' ∧
      lines w' = lines w ++ [begun w ++ cmd] ∧ begun w' = [] := by
  obtain ⟨hcomplete, hopen⟩ := sent_whole hcmd (link w).sent
  have hlines : lines w' = lines w ++ [begun w ++ cmd] := by
    rw [lines, hlink]
    exact hcomplete
  obtain ⟨⟨read, htold, hheard⟩, hobeyed⟩ := h
  refine ⟨⟨⟨read, ?_, ?_⟩, ?_⟩, hlines, ?_⟩
  · rw [hlines, told_concat, htold, List.append_assoc]
  · rw [hlink, hstate]
    exact hheard
  · rw [hlines, told_concat, bytesOf_append, hlink]
    exact hobeyed.trans (List.prefix_append _ _)
  · rw [begun, hlink]
    exact hopen

/-- What a command leaves: the socket it was sent over, the lines that have gone out, and the
answers that are unread. -/
theorem sendCommand_cases (hos : Obeys host os) (patience : Nat) {cmd : List UInt8}
    (hcmd : newline ∉ cmd) (expected : String) (h : Waiting host unread w) :
    let r := sendCommandUnlocked os patience cmd expected w
    r.2.state.fd = w.state.fd ∧ (link r.2).opened = (link w).opened ∧
      ((r.1 = none ∧ lines r.2 = lines w ∧ (∃ part, part <+: cmd ∧ begun r.2 = begun w ++ part) ∧
          Waiting host unread r.2) ∨
        (lines r.2 = lines w ++ [begun w ++ cmd] ∧ begun r.2 = [] ∧
          ((r.1 = none ∧ ∃ left, left <:+ unread ++ [host.answer (lines w ++ [begun w ++ cmd])] ∧
              Waiting host left r.2) ∨
            ∃ skipped raw left,
              unread ++ [host.answer (lines w ++ [begun w ++ cmd])] = skipped ++ raw :: left ∧
                r.1 = some (chomp raw) ∧ isAnswer expected (chomp raw) = true ∧
                Waiting host left r.2))) := by
  intro r
  obtain ⟨out, hout, hlink, hstate, hall⟩ :=
    sendAll_sent os (cmd ++ [newline]).length (cmd ++ [newline]) w
  let sent := sendAll os (cmd ++ [newline]).length (cmd ++ [newline]) w
  have hrun : r = (if sent.1 then receive os patience expected 8 else pure none) sent.2 := rfl
  have hfd : sent.2.state.fd = w.state.fd := congrArg State.fd hstate
  have hopened : (link sent.2).opened = (link w).opened := by
    have hsame := congrArg Link.opened hlink
    exact hsame
  by_cases hsent : sent.1 = true
  · rw [if_pos hsent] at hrun
    have hwhole := hall hsent
    subst hwhole
    obtain ⟨hwait, hlines, hbegun⟩ := h.sentWhole hcmd hlink hstate
    have hsteady := outgoing_receive os patience expected 8 sent.2
    rw [← hrun, Prod.mk.injEq, Prod.mk.injEq] at hsteady
    obtain ⟨hfd', hopened', hsent'⟩ := hsteady
    refine ⟨hfd'.trans hfd, hopened'.trans hopened, Or.inr ⟨?_, ?_, ?_⟩⟩
    · rw [lines, hsent']
      exact hlines
    · rw [begun, hsent']
      exact hbegun
    · have hread := receive_waiting hos patience expected 8 hwait
      rw [← hrun] at hread
      exact hread
  · rw [if_neg hsent] at hrun
    rw [hrun, pure_run]
    refine ⟨hfd, hopened, ?_⟩
    rcases List.prefix_concat_iff.mp hout with rfl | hpart
    · obtain ⟨hwait, hlines, hbegun⟩ := h.sentWhole hcmd hlink hstate
      exact Or.inr ⟨hlines, hbegun, Or.inl ⟨rfl, _, List.suffix_refl _, hwait⟩⟩
    · have hnewline : newline ∉ out := fun hmem => hcmd (hpart.subset hmem)
      obtain ⟨hwait, hlines, hbegun⟩ := h.sentPart hnewline hlink hstate
      exact Or.inl ⟨rfl, hlines, ⟨out, hpart, hbegun⟩, hwait⟩

end

end RimeWinime.Win32Proxy
