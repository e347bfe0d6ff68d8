import RimeWinime.Host.ResultSlot

namespace RimeWinime.CharMessages

open World Win32 Session Adapter Utf16 Text

variable {σ : Type}

/-- The message is `WM_CHAR` or `WM_IME_CHAR` with the unit as its character. -/
def CarriesUnit (message : UInt32) (wParam : UInt64) (u : UInt16) : Prop :=
  carriesChar message = true ∧ wParam.toUInt32 = u.toUInt32

def Posts (msgs : List Msg) (units : List UInt16) : Prop :=
  List.Forall₂ (fun msg u => CarriesUnit msg.message msg.wParam u) msgs units

def Lists (msgs : List TransMsg) (units : List UInt16) : Prop :=
  List.Forall₂ (fun msg u => CarriesUnit msg.message msg.wParam u) msgs units

def Basic (text : String) : Prop := ∀ c ∈ text.toList, c.toNat < 0x10000

/-- What a unit adds to the text: nothing when it is a surrogate. -/
def heard (u : UInt16) : String :=
  if u.toNat.isValidChar then String.singleton (Char.ofNat u.toNat) else ""

def heardText (units : List UInt16) : String := concat (units.map heard)

theorem charText_of_carries {message : UInt32} {wParam : UInt64} {u : UInt16}
    (h : CarriesUnit message wParam u) : charText wParam = heard u := by
  rw [charText, h.2]
  rfl

theorem heard_surrogate {u : UInt16} (h : isSurrogate u = true) : heard u = "" := by
  have hrange := (surrogate_range u).mp h
  apply if_neg
  rintro (hlow | hhigh) <;> omega

theorem heard_encodeChar (c : Char) :
    heardText (encodeChar c) = if c.toNat < 0x10000 then String.singleton c else "" := by
  by_cases h : c.toNat < 0x10000
  · obtain ⟨u, hunits, -, hu⟩ := encodeChar_bmp h
    have hheard : heard u = String.singleton c := by
      have hvalid : c.toNat.isValidChar := c.valid
      rw [heard, hu, if_pos hvalid, Char.ofNat_toNat]
    rw [if_pos h, hunits, heardText, List.map_singleton, hheard, concat_singleton]
  · obtain ⟨hi, lo, hunits, hhi, hlo, -⟩ := encodeChar_pair h
    have hhigh : isSurrogate hi = true := ((Bool.and_eq_true _ _).mp hhi).1
    have hlow : isSurrogate lo = true := by
      have hrange := low_range hlo
      rw [surrogate_range]
      omega
    rw [if_neg h, hunits, heardText, List.map_cons, List.map_singleton, heard_surrogate hhigh,
      heard_surrogate hlow]
    rfl

theorem heardText_append (a b : List UInt16) : heardText (a ++ b) = heardText a ++ heardText b := by
  rw [heardText, List.map_append, concat_append]
  rfl

theorem heard_encode (text : String) :
    heardText (encode text) = String.ofList (text.toList.filter fun c => c.toNat < 0x10000) := by
  have hchars (cs : List Char) : heardText (cs.flatMap encodeChar) =
      String.ofList (cs.filter fun c => c.toNat < 0x10000) := by
    induction cs with
    | nil => rfl
    | cons c cs ih =>
        rw [List.flatMap_cons, heardText_append, heard_encodeChar, ih]
        by_cases h : c.toNat < 0x10000
        · rw [if_pos h, List.filter_cons_of_pos (by simpa using h), String.singleton_eq_ofList,
            ← String.ofList_append]
          rfl
        · rw [if_neg h, List.filter_cons_of_neg (by simpa using h), String.empty_append]
  exact hchars text.toList

theorem heard_encode_eq_iff (text : String) : heardText (encode text) = text ↔ Basic text := by
  have hfilter : (text.toList.filter fun c => c.toNat < 0x10000) = text.toList ↔ Basic text := by
    rw [List.filter_eq_self]
    exact forall₂_congr fun c _ => by simp
  rw [heard_encode, ← hfilter, ← String.toList_inj, String.toList_ofList]

def KeepsQueue {α : Type} (x : Act (Thread σ) α) : Prop := ∀ w, (x w).2.queue = w.queue

/-- Nothing is announced or written as a result, and neither dispatching nor
sending a message posts another one. -/
structure Plain (api : Api (Thread σ)) (himc : Himc) : Prop where
  peek : api.peekMessage = peekQueue
  dispatch : ∀ msg, KeepsQueue (api.dispatchMessage msg)
  send : ∀ hwnd message wParam lParam, KeepsQueue (api.sendMessage hwnd message wParam lParam)
  slot : ∀ w, resultString api himc w = none

theorem not_announces {message : UInt32} (h : carriesChar message = true) (lParam : UInt64) :
    announcesResult message lParam = false := by
  have hother : (message == WM_IME_COMPOSITION) = false := by
    rw [carriesChar, Bool.or_eq_true, beq_iff_eq, beq_iff_eq] at h
    rcases h with rfl | rfl <;> decide
  rw [announcesResult, hother, Bool.false_and]

section

variable {api : Api (Thread σ)} {himc : Himc}

theorem pumpLoop_posts (h : Plain api himc) {msgs : List Msg} {units : List UInt16}
    (hposts : Posts msgs units) (count : Nat) (hcount : msgs.length ≤ count) (out : PumpResult)
    (rest : σ) :
    (pumpLoop api himc none count out ⟨msgs, rest⟩).1 =
        { out with charText := out.charText ++ heardText units } ∧
      (pumpLoop api himc none count out ⟨msgs, rest⟩).2.queue = [] := by
  induction hposts generalizing count out rest with
  | nil =>
      have hstop : pumpLoop api himc none count out ⟨[], rest⟩ = (out, ⟨[], rest⟩) := by
        cases count with
        | zero => rfl
        | succ count => simp [pumpLoop, h.peek, peekQueue]
      rw [hstop]
      exact ⟨by simp [heardText], rfl⟩
  | @cons msg u msgs units hmsg _ ih =>
      cases count with
      | zero => cases hcount
      | succ count =>
          have hone : pumpOne api himc out msg ⟨msgs, rest⟩ =
              { out with charText := out.charText ++ heard u } := by
            rw [pumpOne, not_announces hmsg.1, hmsg.1, charText_of_carries hmsg]
            rfl
          have hpeek : api.peekMessage none ⟨msg :: msgs, rest⟩ = (some msg, ⟨msgs, rest⟩) := by
            rw [h.peek]
            rfl
          have hnext : (api.dispatchMessage msg ⟨msgs, rest⟩).2 =
              ⟨msgs, (api.dispatchMessage msg ⟨msgs, rest⟩).2.rest⟩ :=
            congrArg (fun queue => Thread.mk queue _) (h.dispatch msg ⟨msgs, rest⟩)
          have hrun : pumpLoop api himc none (count + 1) out ⟨msg :: msgs, rest⟩ =
              pumpLoop api himc none count { out with charText := out.charText ++ heard u }
                ⟨msgs, (api.dispatchMessage msg ⟨msgs, rest⟩).2.rest⟩ := by
            rw [pumpLoop]
            simp only [bind_run, hpeek, observe_run, hone]
            rw [hnext]
          obtain ⟨hout, hleft⟩ := ih count (Nat.le_of_succ_le_succ hcount)
            { out with charText := out.charText ++ heard u }
            (api.dispatchMessage msg ⟨msgs, rest⟩).2.rest
          rw [hrun, hout, hleft]
          refine ⟨?_, rfl⟩
          simp only [heardText, List.map_cons, concat, String.append_assoc]

theorem pumpLoop_empty (h : Plain api himc) (filter : Option Hwnd) (count : Nat) (out : PumpResult)
    {w : Thread σ} (hw : w.queue = []) : pumpLoop api himc filter count out w = (out, w) := by
  cases count with
  | zero => rfl
  | succ count => simp [pumpLoop, h.peek, peekQueue, hw]

theorem harvest_empty {s : WinImmSession} (h : Plain api s.himc) {w : Thread σ} (hw : w.queue = []) :
    harvestThreadMessages api s w = (s, w) := by
  have hpump := pumpLoop_empty h none MAX_PUMP_MESSAGES {} hw
  simp only [harvestThreadMessages, pumpThreadMessages, pumpMessagesForHwnd, bind_run, hpump,
    pure_run]
  simp [commitPumped, PumpResult.text]

theorem harvest_posts {s : WinImmSession} (h : Plain api s.himc) {units : List UInt16}
    {w : Thread σ} (hposts : Posts w.queue units) (hbudget : units.length ≤ MAX_PUMP_MESSAGES) :
    (harvestThreadMessages api s w).1 = appendCommit s (heardText units) ∧
      (harvestThreadMessages api s w).2.queue = [] := by
  obtain ⟨hout, hleft⟩ := pumpLoop_posts h hposts MAX_PUMP_MESSAGES
    (hposts.length_eq.trans_le hbudget) {} w.rest
  have hout' : (pumpLoop api s.himc none MAX_PUMP_MESSAGES {} w).1.text = heardText units := by
    rw [hout]
    simp [PumpResult.text]
  exact ⟨congrArg (appendCommit s) hout', hleft⟩

theorem transmsgLoop_lists {s : WinImmSession} (h : Plain api s.himc) {msgs : List TransMsg}
    {units : List UInt16} (hlists : Lists msgs units) (out : PumpResult) (w : Thread σ) :
    (transmsgLoop api s msgs out w).1 = { out with charText := out.charText ++ heardText units } ∧
      (transmsgLoop api s msgs out w).2.queue = w.queue := by
  induction hlists generalizing out w with
  | nil => exact ⟨by simp [transmsgLoop, heardText], rfl⟩
  | @cons msg u msgs units hmsg _ ih =>
      have hsome : msg.message ≠ 0 := by
        intro hzero
        have hchar := hmsg.1
        rw [hzero] at hchar
        exact absurd hchar (by decide)
      have hone : transmsgOne api s.himc out msg w =
          { out with charText := out.charText ++ heard u } := by
        rw [transmsgOne, not_announces hmsg.1, hmsg.1, charText_of_carries hmsg]
        rfl
      have hqueue := h.send s.targetHwnd msg.message msg.wParam msg.lParam w
      obtain ⟨hout, hkept⟩ := ih { out with charText := out.charText ++ heard u }
        (api.sendMessage s.targetHwnd msg.message msg.wParam msg.lParam w).2
      rw [transmsgLoop, if_neg hsome]
      simp only [bind_run, observe_run, hone]
      rw [hout, hkept, hqueue]
      refine ⟨?_, rfl⟩
      simp only [heardText, List.map_cons, concat, String.append_assoc]

theorem consumeDirect_lists {ime : ImeFunctions (Thread σ)} {s : WinImmSession}
    (h : Plain api s.himc) {imeUvirt : UInt32} {keyState : KeyState} {w : Thread σ}
    {msgs : List TransMsg} {units : List UInt16}
    (hreply : (ime.toAsciiEx imeUvirt keyState s.himc w).1 = (UInt32.ofNat msgs.length, msgs))
    (hempty : (ime.toAsciiEx imeUvirt keyState s.himc w).2.queue = [])
    (hlists : Lists msgs units) (hbudget : units.length ≤ MAX_TRANS_MSGS) :
    (consumeDirect api ime s imeUvirt keyState w).1 = appendCommit s (heardText units) ∧
      (consumeDirect api ime s imeUvirt keyState w).2.queue = [] := by
  have hfits : msgs.length ≤ MAX_TRANS_MSGS := hlists.length_eq.trans_le hbudget
  obtain ⟨hout, hkept⟩ := transmsgLoop_lists h hlists {}
    (ime.toAsciiEx imeUvirt keyState s.himc w).2
  have hqueue := hkept.trans hempty
  have hpump := pumpLoop_empty h (some s.targetHwnd) MAX_PUMP_MESSAGES {} hqueue
  have hdispatch : dispatchImeTransmsgs api ime s imeUvirt keyState w =
      ({ charText := heardText units },
        (transmsgLoop api s msgs {} (ime.toAsciiEx imeUvirt keyState s.himc w).2).2) := by
    simp only [dispatchImeTransmsgs, bind_run, hreply, ResultSlot.reported_of_fits hfits,
      pumpWindowMessages, pumpMessagesForHwnd, hpump, observe_run, pure_run, hout, h.slot]
    simp [mergeDirect]
  have hcommit : commitPumped s { charText := heardText units } =
      appendCommit s (heardText units) := rfl
  have hharvest := harvest_empty (s := appendCommit s (heardText units))
    (by rwa [appendCommit_himc]) hqueue
  simp only [consumeDirect, bind_run, hdispatch, hcommit, hharvest]
  exact ⟨trivial, hqueue⟩

end

/-- What the key posts while it is translated and what it lists when it is
consumed directly; everything else leaves the queue alone. -/
structure BringsChars (api : Api (Thread σ)) (ime : ImeFunctions (Thread σ)) (himc : Himc)
    (posted : List Msg) (listed : List TransMsg) (accepted direct : Bool) : Prop where
  plain : Plain api himc
  keyboard : ∀ keyState, KeepsQueue (api.setKeyboardState keyState)
  unicode : ∀ vk scan keyState, KeepsQueue (api.toUnicode vk scan keyState)
  offered : ∀ hwnd hkl vk lParam, KeepsQueue (api.immProcessKey hwnd hkl vk lParam) ∧
    ∀ w, ((api.immProcessKey hwnd hkl vk lParam w).1 &&& IPHK_PROCESSBYIME != 0) = accepted
  translated : ∀ hwnd message wParam lParam w,
    (api.immTranslateMessage hwnd message wParam lParam w).2.queue = w.queue ++ posted
  consumed : ∀ vk lParam keyState, KeepsQueue (ime.processKey himc vk lParam keyState) ∧
    ∀ w, (ime.processKey himc vk lParam keyState w).1 = direct
  lists : ∀ imeUvirt keyState, KeepsQueue (ime.toAsciiEx imeUvirt keyState himc) ∧
    ∀ w, (ime.toAsciiEx imeUvirt keyState himc w).1 = (UInt32.ofNat listed.length, listed)
  unaccepted : accepted = false → posted = []
  unconsumed : direct = false → listed = []

section

variable {api : Api (Thread σ)} {ime : ImeFunctions (Thread σ)} {s : WinImmSession}
  {posted : List Msg} {listed : List TransMsg} {accepted direct : Bool}

theorem offerKey_brings (h : BringsChars api ime s.himc posted listed accepted direct)
    {units : List UInt16} (hposts : Posts posted units) (hbudget : units.length ≤ MAX_PUMP_MESSAGES)
    (vk : UInt16) (isKeyup isAlt : Bool) {w : Thread σ} (hw : w.queue = []) :
    (offerKey api s vk isKeyup isAlt w).1.2 = appendCommit s (heardText units) ∧
      (offerKey api s vk isKeyup isAlt w).2.queue = [] := by
  have hsent (hwnd : Hwnd) (message : UInt32) (wParam lParam : UInt64) :
      (api.sendMessage hwnd message wParam lParam w).2.queue = [] :=
    (h.plain.send hwnd message wParam lParam w).trans hw
  obtain ⟨w', hqueue, hrun⟩ : ∃ w' : Thread σ, w'.queue = posted ∧
      offerKey api s vk isKeyup isAlt w =
        ((accepted, (harvestThreadMessages api s w').1), (harvestThreadMessages api s w').2) := by
    simp only [offerKey, bind_run, observe_run, (h.offered _ _ _ _).2]
    cases haccepted : accepted with
    | true =>
        refine ⟨_, ?_, rfl⟩
        rw [h.translated, (h.offered _ _ _ _).1, hsent, List.nil_append]
    | false =>
        refine ⟨_, ?_, rfl⟩
        rw [(h.offered _ _ _ _).1, hsent, h.unaccepted haccepted]
  rw [hrun]
  apply harvest_posts h.plain _ hbudget
  rwa [hqueue]

theorem directKey_brings (h : BringsChars api ime s.himc posted listed accepted direct)
    {units : List UInt16} (hlists : Lists listed units) (hbudget : units.length ≤ MAX_TRANS_MSGS)
    (imeUvirt : UInt32) (keyState : KeyState) {w : Thread σ} (hw : w.queue = []) :
    ((if direct then consumeDirect api ime s imeUvirt keyState else pure s) w).1 =
        appendCommit s (heardText units) ∧
      ((if direct then consumeDirect api ime s imeUvirt keyState else pure s) w).2.queue = [] := by
  cases hdirect : direct with
  | true =>
      exact consumeDirect_lists h.plain ((h.lists imeUvirt keyState).2 w)
        (((h.lists imeUvirt keyState).1 w).trans hw) hlists hbudget
  | false =>
      have hunits : units = [] := by
        rw [h.unconsumed hdirect] at hlists
        cases hlists
        rfl
      rw [hunits]
      exact ⟨(appendCommit_empty s).symm, hw⟩

theorem releaseKey_quiet (h : Plain api s.himc) (vk : UInt16) (isAlt : Bool) {w : Thread σ}
    (hw : w.queue = []) :
    (releaseKey api s vk isAlt w).1 = s ∧ (releaseKey api s vk isAlt w).2.queue = [] := by
  have hsent := (h.send s.targetHwnd (keyMessage true isAlt) vk.toUInt64
    (VkMap.makeLKeyData api.mapVirtualKey vk true isAlt).toUInt64 w).trans hw
  simp only [releaseKey, bind_run, harvest_empty h hsent]
  exact ⟨trivial, hsent⟩

def Drained (w : Thread σ) : Prop := w.queue = []

theorem processVk_brings (h : BringsChars api ime s.himc posted listed accepted direct)
    {posts lists : List UInt16} (hposts : Posts posted posts) (hlists : Lists listed lists)
    (hbudget : (posts ++ lists).length ≤ MAX_PUMP_MESSAGES) (vk : UInt16) (modifiers : UInt32)
    (isKeyup : Bool) :
    Keeps Drained (fun r => r.2 = appendCommit s (heardText (posts ++ lists)))
      (processVk api ime s vk modifiers isKeyup) := by
  rw [List.length_append] at hbudget
  have hpump : posts.length ≤ MAX_PUMP_MESSAGES := Nat.le_of_add_right_le hbudget
  have hlist : lists.length ≤ MAX_TRANS_MSGS := (Nat.le_add_left _ _).trans hbudget
  refine Keeps.bind (P := fun _ => True) (fun w hw => ⟨trivial, (h.keyboard _ w).trans hw⟩)
    fun _ _ => ?_
  refine Keeps.bind (P := fun _ => True) (fun w hw => ⟨trivial, (h.unicode _ _ _ w).trans hw⟩)
    fun unicode _ => ?_
  refine Keeps.bind (P := fun r => r.2 = appendCommit s (heardText posts))
    (fun w hw => offerKey_brings h hposts hpump vk isKeyup _ hw) ?_
  rintro ⟨offered, _⟩ rfl
  have himc : (appendCommit s (heardText posts)).himc = s.himc := appendCommit_himc _ _
  have h' : BringsChars api ime (appendCommit s (heardText posts)).himc posted listed accepted
      direct := by rwa [himc]
  refine Keeps.bind (P := fun answer => answer = direct)
    (fun w hw => ⟨(h'.consumed _ _ _).2 w, ((h'.consumed _ _ _).1 w).trans hw⟩) ?_
  rintro _ rfl
  refine Keeps.bind (P := fun r => r = appendCommit s (heardText (posts ++ lists)))
    (fun w hw => ?_) ?_
  · rw [heardText_append, ← appendCommit_append]
    exact directKey_brings h' hlists hlist _ _ hw
  rintro _ rfl
  have himc' : (appendCommit s (heardText (posts ++ lists))).himc = s.himc := appendCommit_himc _ _
  have hplain : Plain api (appendCommit s (heardText (posts ++ lists))).himc := by
    rw [himc']
    exact h.plain
  refine Keeps.bind (P := fun r => r = appendCommit s (heardText (posts ++ lists))) ?_ ?_
  · exact Keeps.ite (fun _ => Keeps.pure rfl) fun _ w hw => releaseKey_quiet hplain vk _ hw
  rintro _ rfl
  refine Keeps.bind (Keeps.observe (P := fun slot => slot = none) fun w _ => hplain.slot w) ?_
  rintro _ rfl
  apply Keeps.pure
  rw [finalResultCheck]
  split
  · exact appendCommit_empty _
  · rfl

end

theorem pending_exact_iff (s : WinImmSession) (text : String) :
    pendingText (appendCommit s (heardText (encode text))) = pendingText s ++ text ↔ Basic text := by
  rw [pendingText_appendCommit, ← heard_encode_eq_iff, ← String.toList_inj, String.toList_append,
    String.toList_append, List.append_cancel_left_eq, String.toList_inj]

/-- A key in whose course the input method posts these messages to the thread. -/
def postingApi (posted : List Msg) : Api (Thread Unit) :=
  { inertApi with
    peekMessage := peekQueue
    immProcessKey := fun _ _ _ _ => pure IPHK_PROCESSBYIME
    immTranslateMessage := fun _ _ _ _ w => (true, ⟨w.queue ++ posted, w.rest⟩) }

theorem postingApi_brings (posted : List Msg) (himc : Himc) :
    BringsChars (postingApi posted) inertIme himc posted [] true false where
  plain := ⟨rfl, fun _ _ => rfl, fun _ _ _ _ _ => rfl, fun _ => rfl⟩
  keyboard _ _ := rfl
  unicode _ _ _ _ := rfl
  offered _ _ _ _ :=
    have hflag : (IPHK_PROCESSBYIME &&& IPHK_PROCESSBYIME != 0) = true := by decide
    ⟨fun _ => rfl, fun _ => hflag⟩
  translated _ _ _ _ _ := rfl
  consumed _ _ _ := ⟨fun _ => rfl, fun _ => rfl⟩
  lists _ _ := ⟨fun _ => rfl, fun _ => rfl⟩
  unaccepted h := by cases h
  unconsumed _ := rfl

def plainSession : WinImmSession := ⟨1, 10, 10, 20, 30, none⟩

def grin : String := String.singleton (Char.ofNat 0x1F600)

def grinMessages : List Msg := [⟨10, WM_CHAR, 0xD83D, 0⟩, ⟨10, WM_IME_CHAR, 0xDE00, 0⟩]

theorem grin_posted : Posts grinMessages (encode grin) := by
  have hunits : encode grin = [0xD83D, 0xDE00] := by decide
  rw [hunits]
  exact .cons ⟨rfl, rfl⟩ (.cons ⟨rfl, rfl⟩ .nil)

theorem grin_dropped :
    Posts grinMessages (encode grin) ∧
      BringsChars (postingApi grinMessages) inertIme plainSession.himc grinMessages [] true false ∧
      pendingText (processVk (postingApi grinMessages) inertIme plainSession 0x41 0 false
        ⟨[], ()⟩).1.2 ≠ pendingText plainSession ++ grin := by
  refine ⟨grin_posted, postingApi_brings _ _, fun hexact => ?_⟩
  have hbrings := processVk_brings (postingApi_brings grinMessages plainSession.himc) grin_posted
    .nil (by decide) 0x41 0 false ⟨[], ()⟩ rfl
  rw [List.append_nil] at hbrings
  rw [hbrings.1, pending_exact_iff] at hexact
  exact absurd (hexact _ (List.mem_singleton.mpr rfl)) (by decide)

/-- A text comes through whole exactly when all its characters are in the basic
plane: read from the thread's queue, or brought by a key through the queue and
the list. -/
theorem char_messages_exact_iff (api : Api (Thread σ)) (ime : ImeFunctions (Thread σ))
    (s : WinImmSession) (posted : List Msg) (listed : List TransMsg) (accepted direct : Bool)
    (h : BringsChars api ime s.himc posted listed accepted direct) (text : String)
    (hbudget : (encode text).length ≤ MAX_PUMP_MESSAGES) :
    (∀ w : Thread σ, Posts w.queue (encode text) →
        (pendingText (harvestThreadMessages api s w).1 = pendingText s ++ text ↔ Basic text)) ∧
      ∀ posts lists, posts ++ lists = encode text → Posts posted posts → Lists listed lists →
        ∀ vk modifiers isKeyup, ∀ w : Thread σ, w.queue = [] →
          (pendingText (processVk api ime s vk modifiers isKeyup w).1.2 = pendingText s ++ text ↔
            Basic text) := by
  constructor
  · intro w hposts
    rw [(harvest_posts h.plain hposts hbudget).1, pending_exact_iff]
  · intro posts lists hunits hposts hlists vk modifiers isKeyup w hw
    have hfits : (posts ++ lists).length ≤ MAX_PUMP_MESSAGES := by rwa [hunits]
    rw [(processVk_brings h hposts hlists hfits vk modifiers isKeyup w hw).1, hunits,
      pending_exact_iff]

theorem two_letters_arrive :
    pendingText (processVk (postingApi [⟨10, WM_CHAR, 0x6E, 0⟩, ⟨10, WM_IME_CHAR, 0x69, 0⟩])
      inertIme plainSession 0x41 0 false ⟨[], ()⟩).1.2 = "ni" := by
  have hbasic : Basic "ni" := by
    intro c hc
    have hletters : "ni".toList = ['n', 'i'] := rfl
    rw [hletters] at hc
    rcases List.mem_pair.mp hc with rfl | rfl
    · decide
    · decide
  exact ((char_messages_exact_iff _ _ _ _ _ _ _ (postingApi_brings _ plainSession.himc) "ni"
    (by decide)).2 [0x6E, 0x69] [] (by decide) (.cons ⟨rfl, rfl⟩ (.cons ⟨rfl, rfl⟩ .nil)) .nil
      0x41 0 false ⟨[], ()⟩ rfl).mpr hbasic

end RimeWinime.CharMessages
