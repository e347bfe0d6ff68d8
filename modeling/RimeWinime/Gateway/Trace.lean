import RimeWinime.Gateway.Steps
import RimeWinime.Lib.Run

namespace RimeWinime.Trace

open World Worker Table Pool Service Steps Run

variable {P : Type}

/-- A request that has been put to a worker for a session: how many resets the
worker had answered by then, and the seq of a key event. -/
structure Asked where
  sessionId : String
  workerId : String
  era : Nat
  seq : Option UInt64
deriving DecidableEq

def keySeq : Handler → Option UInt64
  | .applyKey _ _ event => some event.seq
  | _ => none

def asks (sys : System P) : Event → Option Asked
  | .resume i =>
      match sys.handlers[i]?.bind fun handler => (asking handler).map (keySeq handler, ·) with
      | none => none
      | some (seq, sessionId, workerId) =>
          (sys.state.pool.workers.lookup workerId).map fun worker =>
            ⟨sessionId, workerId, era worker, seq⟩
  | _ => none

def issues : Event → Option String
  | .arrive (.openSession sessionId _) => some sessionId
  | _ => none

/-- The gateway with the requests its workers have seen and the session ids
that have been drawn. -/
structure Traced (P : Type) where
  sys : System P
  log : List Asked
  issued : List String

def trace (m : Machine P) (t : Traced P) (e : Event) : Traced P where
  sys := step m t.sys e
  log := t.log ++ (asks t.sys e).toList
  issued := t.issued ++ (issues e).toList

def begin (m : Machine P) (cfg : PoolConfig) (sessionIdleTtl : Nat) : Traced P :=
  ⟨start m cfg sessionIdleTtl, [], []⟩

/-- `Uuid::new_v4` draws an id that has not been drawn before. -/
def UuidFresh (t : Traced P) (e : Event) : Prop := ∀ sessionId ∈ issues e, sessionId ∉ t.issued

instance (t : Traced P) (e : Event) : Decidable (UuidFresh t e) :=
  inferInstanceAs (Decidable (∀ sessionId ∈ issues e, sessionId ∉ t.issued))

def listed : Reaper → List String
  | .listed _ expired => expired
  | .removed expired => expired
  | _ => []

inductive Known (t : Traced P) (sessionId : String) : Prop
  | entered (h : sessionId ∈ t.sys.state.sessions)
  | held {handler : Handler} {workerId : String} (hmem : handler ∈ t.sys.handlers)
      (h : holding handler = some (sessionId, workerId))
  | logged {asked : Asked} (hmem : asked ∈ t.log) (h : asked.sessionId = sessionId)
  | listed (h : sessionId ∈ listed t.sys.reaper)

def openings (t : Traced P) : List String := t.sys.handlers.filterMap opening

/-- An open that is under way has a session id of its own. -/
structure Apart (t : Traced P) : Prop where
  nodup : (openings t).Nodup
  drawn : ∀ sessionId ∈ openings t, sessionId ∈ t.issued
  known : ∀ sessionId, Known t sessionId → sessionId ∈ t.issued ∧ sessionId ∉ openings t

theorem asks_resume {sys : System P} {i : Nat} {handler : Handler}
    (hi : sys.handlers[i]? = some handler) {asked : Asked} (h : asks sys (.resume i) = some asked) :
    asking handler = some (asked.sessionId, asked.workerId) ∧ keySeq handler = asked.seq ∧
      ∃ worker, sys.state.pool.workers.lookup asked.workerId = some worker ∧
        era worker = asked.era := by
  simp only [asks, hi, Option.bind_some] at h
  cases ha : asking handler with
  | none => simp [ha] at h
  | some p =>
      obtain ⟨sessionId, workerId⟩ := p
      simp only [ha, Option.map_some] at h
      obtain ⟨worker, hw, rfl⟩ := Option.map_eq_some_iff.mp h
      exact ⟨rfl, rfl, worker, hw, rfl⟩

theorem known_reap {m : Machine P} {t : Traced P} {order : List String} {sessionId : String}
    (h : Known (trace m t (.reap order)) sessionId) : Known t sessionId := by
  cases h with
  | held hmem hheld => exact .held hmem hheld
  | logged hmem hlogged => exact .logged (by simpa [trace, asks] using hmem) hlogged
  | entered hin => exact .entered (reap_mem hin)
  | listed hin =>
      cases hr : t.sys.reaper with
      | sleeping | removed => simp [trace, step, hr, reap, listed] at hin
      | woken now =>
          apply Known.entered
          simp only [trace, step, hr, reap] at hin
          split at hin
          · cases hin
          · obtain ⟨session, hs, -⟩ := mem_expired hin
            exact mem_of_lookup hs
      | listed now expired =>
          refine .listed ?_
          simpa [trace, step, hr, reap, listed] using hin

theorem apart_arrive {m : Machine P} {t : Traced P} (h : Apart t) (call : Call)
    (hfresh : UuidFresh t (.arrive call)) : Apart (trace m t (.arrive call)) := by
  have hopenings : openings (trace m t (.arrive call)) =
      openings t ++ (issues (.arrive call)).toList := by
    cases call <;> simp [openings, trace, step, issues, opening]
  have hknown {sessionId : String} (hk : Known (trace m t (.arrive call)) sessionId) :
      Known t sessionId := by
    cases hk with
    | entered hin => exact .entered hin
    | logged hmem hlogged => exact .logged (by simpa [trace, asks] using hmem) hlogged
    | listed hin => exact .listed hin
    | held hmem hheld =>
        rcases List.mem_append.mp hmem with hold | hnew
        · exact .held hold hheld
        · rw [List.mem_singleton.mp hnew] at hheld
          cases hheld
  constructor
  case nodup =>
    rw [hopenings]
    refine List.Nodup.append h.nodup ?_ ?_
    · cases issues (.arrive call) <;> simp
    · intro j hold hnew
      exact hfresh j (by simpa using hnew) (h.drawn j hold)
  case drawn =>
    intro j hj
    rw [hopenings] at hj
    rcases List.mem_append.mp hj with hold | hnew
    · exact List.mem_append_left _ (h.drawn j hold)
    · exact List.mem_append_right _ hnew
  case known =>
    intro j hj
    obtain ⟨hdrawn, hapart⟩ := h.known j (hknown hj)
    refine ⟨List.mem_append_left _ hdrawn, ?_⟩
    rw [hopenings]
    intro hin
    rcases List.mem_append.mp hin with hold | hnew
    · exact hapart hold
    · exact hfresh j (by simpa using hnew) hdrawn

theorem known_resume {m : Machine P} {t : Traced P} {i : Nat} {sessionId : String}
    (h : Known (trace m t (.resume i)) sessionId) :
    Known t sessionId ∨ ∃ workerId version idle,
      t.sys.handlers[i]? = some (.assigned sessionId workerId version idle) := by
  rcases resume_cases m t.sys i with ⟨hi, hrun⟩ | ⟨before, handler, after, hi, hsplit, hrun⟩
  · left
    have hsys : (trace m t (.resume i)).sys = t.sys := hrun
    have hlog : (trace m t (.resume i)).log = t.log := by simp [trace, asks, hi]
    cases h with
    | entered hin => exact .entered (by rwa [hsys] at hin)
    | held hmem hheld => exact .held (by rwa [hsys] at hmem) hheld
    | logged hmem hlogged => exact .logged (by rwa [hlog] at hmem) hlogged
    | listed hin => exact .listed (by rwa [hsys] at hin)
  · have hsys : (trace m t (.resume i)).sys = _ := hrun
    have hhandler : handler ∈ t.sys.handlers := by
      rw [hsplit]
      exact List.mem_append_right _ List.mem_cons_self
    cases h with
    | entered hin =>
        obtain ⟨session', hs⟩ := exists_lookup hin
        rw [hsys] at hs
        rcases sessions_after m t.sys.clock t.sys.state hs with hold | hnew | hnew
        · exact Or.inl (.entered (mem_of_lookup hold))
        · obtain ⟨-, session, -, hold, -⟩ := hnew
          exact Or.inl (.entered (mem_of_lookup hold))
        · obtain ⟨workerId, version, idle, rfl, -⟩ := hnew
          exact Or.inr ⟨workerId, version, idle, hi⟩
    | @held handler' workerId hmem hheld =>
        left
        rw [hsys] at hmem
        have hkept (hold : handler' ∈ before ∨ handler' ∈ after) : Known t sessionId := by
          refine .held ?_ hheld
          rw [hsplit, List.mem_append, List.mem_cons]
          exact hold.imp_right Or.inr
        rcases List.mem_append.mp hmem with hb | ha
        · exact hkept (Or.inl hb)
        · rcases List.mem_cons.mp ha with rfl | ha
          · rcases holding_after m t.sys.clock t.sys.state hheld with hold | ⟨session, hs, -⟩
            · exact .held hhandler hold
            · exact .entered (mem_of_lookup hs)
          · exact hkept (Or.inr ha)
    | logged hmem hlogged =>
        left
        rcases List.mem_append.mp hmem with hold | hnew
        · exact .logged hold hlogged
        · obtain ⟨hasking, -, -⟩ := asks_resume hi (Option.mem_toList.mp hnew)
          rw [← hlogged]
          exact .held hhandler (holding_of_asking hasking)
    | listed hin => exact Or.inl (.listed (by rwa [hsys] at hin))

theorem apart_resume {m : Machine P} {t : Traced P} (h : Apart t) (i : Nat) :
    Apart (trace m t (.resume i)) := by
  have hissued : (trace m t (.resume i)).issued = t.issued := List.append_nil _
  have hopenings : (openings (trace m t (.resume i))).Sublist (openings t) ∧
      ∀ sessionId workerId version idle,
        t.sys.handlers[i]? = some (.assigned sessionId workerId version idle) →
          sessionId ∈ openings t ∧ sessionId ∉ openings (trace m t (.resume i)) := by
    rcases resume_cases m t.sys i with ⟨hi, hrun⟩ | ⟨before, handler, after, hi, hsplit, hrun⟩
    · have hsys : (trace m t (.resume i)).sys = t.sys := hrun
      refine ⟨by rw [openings, hsys]; exact List.Sublist.refl _, ?_⟩
      intro j w v k hassigned
      cases hi.symm.trans hassigned
    · have hsys : (trace m t (.resume i)).sys = _ := hrun
      have hold : openings t =
          before.filterMap opening ++ ((opening handler).toList ++ after.filterMap opening) := by
        rw [openings, hsplit, List.filterMap_append]
        cases ho : opening handler <;> simp [ho]
      have hnew : openings (trace m t (.resume i)) = before.filterMap opening ++
          ((opening (advance m t.sys.clock handler t.sys.state).1).toList ++
            after.filterMap opening) := by
        rw [openings, hsys, List.filterMap_append]
        cases ho : opening (advance m t.sys.clock handler t.sys.state).1 <;> simp [ho]
      rcases @opening_after _ m t.sys.clock handler t.sys.state with hnone | ⟨hbegun, hsame⟩
      · rw [hnone] at hnew
        refine ⟨?_, ?_⟩
        · rw [hold, hnew]
          exact (List.sublist_append_right _ _).append_left _
        · intro j w v k hassigned
          cases hi.symm.trans hassigned
          have hnodup := h.nodup
          rw [hold] at hnodup ⊢
          rw [hnew]
          have hmoved := List.nodup_middle.mp hnodup
          exact ⟨List.mem_append_right _ List.mem_cons_self, (List.nodup_cons.mp hmoved).1⟩
      · rw [hsame, ← hold] at hnew
        refine ⟨by rw [hnew], ?_⟩
        intro j w v k hassigned
        obtain ⟨sessionId, req, rfl⟩ := hbegun
        cases hi.symm.trans hassigned
  constructor
  case nodup => exact hopenings.1.nodup h.nodup
  case drawn =>
    intro j hj
    rw [hissued]
    exact h.drawn j (hopenings.1.subset hj)
  case known =>
    intro j hj
    rw [hissued]
    rcases known_resume hj with hold | ⟨workerId, version, idle, hassigned⟩
    · obtain ⟨hdrawn, hapart⟩ := h.known j hold
      exact ⟨hdrawn, fun hin => hapart (hopenings.1.subset hin)⟩
    · obtain ⟨hin, hout⟩ := hopenings.2 j workerId version idle hassigned
      exact ⟨h.drawn j hin, hout⟩

theorem apart_step {m : Machine P} {t : Traced P} (h : Apart t) (e : Event)
    (hfresh : UuidFresh t e) : Apart (trace m t e) := by
  cases e with
  | arrive call => exact apart_arrive h call hfresh
  | resume i => exact apart_resume h i
  | reap order =>
      have hissued : (trace m t (.reap order)).issued = t.issued := List.append_nil _
      refine ⟨h.nodup, fun j hj => hissued ▸ h.drawn j hj, fun j hj => ?_⟩
      rw [hissued]
      exact h.known j (known_reap hj)
  | tick elapsed =>
      have hissued : (trace m t (.tick elapsed)).issued = t.issued := List.append_nil _
      have hlog : (trace m t (.tick elapsed)).log = t.log := List.append_nil _
      refine ⟨h.nodup, fun j hj => hissued ▸ h.drawn j hj, fun j hj => ?_⟩
      rw [hissued]
      refine h.known j ?_
      cases hj with
      | entered hin => exact .entered hin
      | held hmem hheld => exact .held hmem hheld
      | logged hmem hlogged => exact .logged (hlog ▸ hmem) hlogged
      | listed hin => exact .listed hin

theorem apart_begin (m : Machine P) (cfg : PoolConfig) (sessionIdleTtl : Nat) :
    Apart (begin m cfg sessionIdleTtl) := by
  refine ⟨List.nodup_nil, (fun _ hj => nomatch hj), fun j hj => ?_⟩
  cases hj with
  | entered hin => exact absurd hin (AList.notMem_empty j)
  | held hmem => cases hmem
  | logged hmem => cases hmem
  | listed hin => cases hin

end RimeWinime.Trace
