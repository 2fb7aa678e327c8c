import Mathlib.Data.Countable.Basic
import Mathlib.Logic.Denumerable
import Mathlib.Logic.Equiv.List
import Mathlib.Tactic.DeriveCountable
import EmsFixtures.Lib.Walk
import EmsFixtures.Snmp.Serving

/-!
# A GetNext walk under concurrent writes

A client sends GetNextRequests, each for the OID of the previous response, while the agent's writers run in between.
Each answered request is a move of a walk over the keys of the map (`Walk.Moves`), so nothing is missed or returned
twice, provided the client reads the OIDs the agent means: those BER can carry (`Clear`).  A request is answered as long
as no OID above the position is one the library refuses (`NextValid`).  Both are kept by every PUT that names, above the
position, only OIDs that BER can carry (`Spares`).
-/

namespace EmsFixtures.Snmp

open HashMap Panics Runs

section

variable [OidRule]

structure WalkState where
  agent : Agent
  pos : ObjectIdentifier
  returned : List Oid
  ended : Bool

inductive WalkOp (F : Type) where
  | agent (o : Op F)
  | request (version : ℤ) (community : Bytes) (requestId : Int32)

def WalkOp.isRequest {F : Type} : WalkOp F → Bool
  | .agent _ => false
  | .request .. => true

namespace WalkState

def start (agent : Agent) (pos : ObjectIdentifier) : WalkState := { agent, pos, returned := [], ended := false }

/-- The client takes the OID of the response as its next position, or stops at EndOfMibView. -/
def receive (s : WalkState) (response : Pdu) : WalkState :=
  match response.variableBindings with
  | [vb] =>
    if vb.value = .endOfMibView then { s with ended := true }
    else { s with pos := vb.name, returned := s.returned ++ [vb.name.arcs] }
  | _ => s

def walk (s : WalkState) : Walk Oid := ⟨s.agent.values.keys, s.pos.arcs, s.returned, s.ended⟩

variable {F : Type} [F64 F]

def Step (codec : V2cCodec) (s : WalkState) : WalkOp F → WalkState → Prop
  | .agent o, t => t = { s with agent := s.agent.op o }
  | .request version community requestId, t => s.ended = false ∧
      ∃ datagram reply response,
        codec.encode ⟨version, community, .getNextRequest (getOne requestId s.pos)⟩ = some datagram ∧
        handleDatagram codec datagram s.agent.values = .ok (some reply) ∧
        codec.decode reply = some ⟨version, community, .response response⟩ ∧ t = s.receive response

/-- BER can carry the position and, until the walk has ended, whatever the library accepts ahead of it. -/
structure Clear (s : WalkState) : Prop where
  pos : Carried s.pos.arcs
  ahead : s.ended = false → ∀ k ∈ s.agent.values, s.pos.arcs < k → IsValidOid k → Carried k

private theorem request_at_end {s t : WalkState} {requestId : Int32} (hnext : nextOid s.agent.values s.pos.arcs = none) :
    (∃ response, buildResponse (getOne requestId s.pos) s.agent.values true = .ok response ∧ t = s.receive response) ↔
      t = { s with ended := true } := by
  have hnamed : named s.agent.values true s.pos.arcs = none := by rw [named, if_pos rfl, hnext]
  rw [getOne_of_not_named hnamed]
  constructor
  · intro h
    obtain ⟨response, hr, rfl⟩ := h
    cases hr
    rfl
  · intro h
    exact ⟨_, rfl, h⟩

private theorem request_at {s t : WalkState} {requestId : Int32} {k : Oid}
    (hnext : nextOid s.agent.values s.pos.arcs = some k) :
    (∃ response, buildResponse (getOne requestId s.pos) s.agent.values true = .ok response ∧ t = s.receive response) ↔
      ∃ hk : IsValidOid k, t = { s with pos := ⟨k, hk⟩, returned := s.returned ++ [k] } := by
  have hnamed : named s.agent.values true s.pos.arcs = some k := by rw [named, if_pos rfl, hnext]
  obtain ⟨v, hv⟩ := Finmap.mem_iff.1 (mem_of_named hnamed)
  rw [getOne_of_named hnamed hv]
  by_cases hk : IsValidOid k
  · rw [dif_pos hk]
    constructor
    · intro h
      obtain ⟨response, hr, rfl⟩ := h
      cases hr
      exact ⟨hk, rfl⟩
    · intro h
      obtain ⟨hk, rfl⟩ := h
      exact ⟨_, rfl, rfl⟩
  · rw [dif_neg hk]
    constructor
    · intro h
      obtain ⟨response, hr, -⟩ := h
      cases hr
    · intro h
      obtain ⟨hk', -⟩ := h
      exact absurd hk' hk

/-- The answer to a request with a valid successor returns it; without successor the walk ends; nothing else is
answered. -/
theorem request_cases {s t : WalkState} {requestId : Int32} :
    (∃ response, buildResponse (getOne requestId s.pos) s.agent.values true = .ok response ∧ t = s.receive response) ↔
      (∃ k, ∃ hk : IsValidOid k, nextOid s.agent.values s.pos.arcs = some k ∧
        t = { s with pos := ⟨k, hk⟩, returned := s.returned ++ [k] }) ∨
      (nextOid s.agent.values s.pos.arcs = none ∧ t = { s with ended := true }) := by
  cases hnext : nextOid s.agent.values s.pos.arcs with
  | none => simp [request_at_end hnext]
  | some k => simp [request_at hnext]

omit [OidRule] in
theorem plain_sent (v : Int64) : (sent v).Plain := by
  constructor
  · exact v.toInt32.le_toInt
  · exact v.toInt32.toInt_lt

/-- The answer to a walk that is clear ahead can be carried. -/
theorem carried_response {s : WalkState} (hs : s.Clear) (he : s.ended = false) {requestId : Int32} {response : Pdu}
    (h : buildResponse (getOne requestId s.pos) s.agent.values true = .ok response) :
    (Pdus.response response).Carried := by
  cases hnext : nextOid s.agent.values s.pos.arcs with
  | none =>
    have hnamed : named s.agent.values true s.pos.arcs = none := by rw [named, if_pos rfl, hnext]
    rw [getOne_of_not_named hnamed] at h
    cases h
    exact ⟨rfl, rfl, by simpa [missed, VarBindValue.Plain] using hs.pos⟩
  | some k =>
    have hnamed : named s.agent.values true s.pos.arcs = some k := by rw [named, if_pos rfl, hnext]
    obtain ⟨hmem, hlt, -⟩ := nextOid_eq_some_iff.1 hnext
    obtain ⟨v, hv⟩ := Finmap.mem_iff.1 hmem
    rw [getOne_of_named hnamed hv] at h
    split at h
    · rename_i hk
      cases h
      exact ⟨rfl, rfl, by simpa using ⟨hs.ahead he k hmem hlt hk, plain_sent v⟩⟩
    · cases h

/-- With a codec that round-trips what BER can carry, a request is answered by `build_response`. -/
theorem step_request_iff {codec : V2cCodec} (hc : codec.RoundTrips) {s t : WalkState} (hs : s.Clear) {version : ℤ}
    {community : Bytes} {requestId : Int32} :
    Step (F := F) codec s (.request version community requestId) t ↔ s.ended = false ∧
      ∃ response, buildResponse (getOne requestId s.pos) s.agent.values true = .ok response ∧
        t = s.receive response := by
  have hrequest : (Pdus.getNextRequest (getOne requestId s.pos)).Carried :=
    ⟨rfl, rfl, by simpa [getOne, VarBindValue.Plain] using hs.pos⟩
  obtain ⟨datagram, hd⟩ := hc.encode_isSome ⟨version, community, .getNextRequest (getOne requestId s.pos)⟩ hrequest
  have hdec := hc.decode_encode _ _ hrequest hd
  have hhandle : handleDatagram codec datagram s.agent.values =
      (buildResponse (getOne requestId s.pos) s.agent.values true).map fun r =>
        codec.encode ⟨version, community, .response r⟩ := by
    unfold handleDatagram
    rw [hdec]
    cases h : buildResponse (getOne requestId s.pos) s.agent.values true <;> simp [h] <;> rfl
  refine and_congr_right fun he => ⟨?_, ?_⟩
  · intro h
    obtain ⟨datagram', reply, response, hd', hreply, hdec', rfl⟩ := h
    obtain rfl : datagram = datagram' := Option.some.inj (hd.symm.trans hd')
    rw [hhandle] at hreply
    cases hb : buildResponse (getOne requestId s.pos) s.agent.values true with
    | error p => rw [hb] at hreply; cases hreply
    | ok response' =>
      rw [hb] at hreply
      have henc : codec.encode ⟨version, community, .response response'⟩ = some reply := Except.ok.inj hreply
      have := (hc.decode_encode _ _ (carried_response hs he hb) henc).symm.trans hdec'
      cases this
      exact ⟨response, rfl, rfl⟩
  · intro h
    obtain ⟨response, hb, rfl⟩ := h
    have hresponse := carried_response hs he hb
    obtain ⟨reply, hr⟩ := hc.encode_isSome ⟨version, community, .response response⟩ hresponse
    exact ⟨datagram, reply, response, hd, by rw [hhandle, hb, ← hr]; rfl, hc.decode_encode _ _ hresponse hr, rfl⟩

/-- A request that is answered returns a valid successor, or ends the walk where there is none. -/
theorem step_request_cases {codec : V2cCodec} (hc : codec.RoundTrips) {s t : WalkState} (hs : s.Clear) {version : ℤ}
    {community : Bytes} {requestId : Int32} (h : Step (F := F) codec s (.request version community requestId) t) :
    s.ended = false ∧ ((∃ k, ∃ hk : IsValidOid k, nextOid s.agent.values s.pos.arcs = some k ∧
        t = { s with pos := ⟨k, hk⟩, returned := s.returned ++ [k] }) ∨
      (nextOid s.agent.values s.pos.arcs = none ∧ t = { s with ended := true })) := by
  obtain ⟨he, hr⟩ := (step_request_iff hc hs).1 h
  exact ⟨he, request_cases.1 hr⟩

/-! ### One step -/

theorem step_moves {codec : V2cCodec} (hc : codec.RoundTrips) {s t : WalkState} (hs : s.Clear) {o : WalkOp F}
    (h : s.Step codec o t) : Walk.Moves s.walk t.walk := by
  cases o with
  | agent o =>
    obtain rfl : t = _ := h
    exact Walk.Moves.grow (w := s.walk) _ fun k hk =>
      Finmap.mem_keys.2 (s.agent.op_mono o (Finmap.mem_keys.1 hk))
  | request version community requestId =>
    obtain ⟨he, ⟨k, hk, hnext, rfl⟩ | ⟨hnone, rfl⟩⟩ := step_request_cases hc hs h
    · obtain ⟨hmem, hlt, hmin⟩ := nextOid_eq_some_iff.1 hnext
      exact Walk.Moves.next (w := s.walk) k he (Finmap.mem_keys.2 hmem) hlt fun k' hk' =>
        hmin k' (Finmap.mem_keys.1 hk')
    · exact Walk.Moves.finish (w := s.walk) he fun k hk => nextOid_eq_none_iff.1 hnone k (Finmap.mem_keys.1 hk)

/-- What the step names above the position of a walk that has not ended satisfies `P`. -/
def Names (P : Oid → Prop) (s : WalkState) : WalkOp F → Prop
  | .agent o => s.ended = false → ∀ k ∈ o.accepted.map Prod.fst, s.pos.arcs < k → P k
  | .request .. => True

omit [F64 F] in
theorem Names.imp {P Q : Oid → Prop} (himp : ∀ k, P k → Q k) {s : WalkState} {o : WalkOp F} (h : s.Names P o) :
    s.Names Q o := by
  cases o with
  | agent o => exact fun he k hk hlt => himp k (h he k hk hlt)
  | request version community requestId => trivial

/-- The step names above the position only OIDs that BER can carry. -/
def Spares (s : WalkState) (o : WalkOp F) : Prop := s.Names Carried o

/-- BER can carry whatever the library accepts of what the step names above the position. -/
def Faithful (s : WalkState) (o : WalkOp F) : Prop := s.Names (fun k => IsValidOid k → Carried k) o

/-- The step names no OID the library refuses above the position. -/
def Safe (s : WalkState) (o : WalkOp F) : Prop := s.Names IsValidOid o

omit [F64 F] in
theorem Spares.faithful {s : WalkState} {o : WalkOp F} (h : s.Spares o) : s.Faithful o :=
  Names.imp (Q := fun k => IsValidOid k → Carried k) (fun _ hk _ => hk) h

omit [F64 F] in
theorem Spares.safe {s : WalkState} {o : WalkOp F} (h : s.Spares o) : s.Safe o := Names.imp (fun _ hk => hk.valid) h

omit [F64 F] in
theorem Safe.spares {s : WalkState} {o : WalkOp F} (h : s.Safe o) (hf : s.Faithful o) : s.Spares o := by
  cases o with
  | agent o => exact fun he k hk hlt => hf he k hk hlt (h he k hk hlt)
  | request version community requestId => trivial

theorem Clear.step {codec : V2cCodec} (hc : codec.RoundTrips) {s t : WalkState} {o : WalkOp F} (hs : s.Clear)
    (hf : s.Faithful o) (h : s.Step codec o t) : t.Clear := by
  cases o with
  | agent o =>
    obtain rfl : t = _ := h
    refine ⟨hs.pos, fun he k hk hlt hvalid => ?_⟩
    rcases Agent.mem_of_mem_op hk with hk | hk | hk
    · exact hs.ahead he k hk hlt hvalid
    · exact computed_carried k hk
    · exact hf he k hk hlt hvalid
  | request version community requestId =>
    obtain ⟨he, ⟨k, hk, hnext, rfl⟩ | ⟨-, rfl⟩⟩ := step_request_cases hc hs h
    · obtain ⟨hmem, hlt, -⟩ := nextOid_eq_some_iff.1 hnext
      exact ⟨hs.ahead he k hmem hlt hk, fun _ k' hk' hlt' => hs.ahead he k' hk' (hlt.trans hlt')⟩
    · exact ⟨hs.pos, fun h' => absurd h' (by simp)⟩

/-- No OID above the position is one the library refuses, until the walk has ended. -/
def NextValid (s : WalkState) : Prop := s.ended = false → ∀ k ∈ s.agent.values, s.pos.arcs < k → IsValidOid k

theorem step_nextValid {codec : V2cCodec} (hc : codec.RoundTrips) {s t : WalkState} {o : WalkOp F} (hs : s.Clear)
    (hv : s.NextValid) (hsafe : s.Safe o) (h : s.Step codec o t) : t.NextValid := by
  cases o with
  | agent o =>
    obtain rfl : t = _ := h
    intro he k hk hlt
    rcases Agent.mem_of_mem_op hk with hk | hk | hk
    · exact hv he k hk hlt
    · exact (computed_carried k hk).valid
    · exact hsafe he k hk hlt
  | request version community requestId =>
    obtain ⟨he, ⟨k, hk, hnext, rfl⟩ | ⟨-, rfl⟩⟩ := step_request_cases hc hs h
    · exact fun _ k' hk' hlt => hv he k' hk' ((nextOid_eq_some_iff.1 hnext).2.1.trans hlt)
    · exact fun h' => absurd h' (by simp)

theorem exists_answer {codec : V2cCodec} (hc : codec.RoundTrips) {s : WalkState} (hs : s.Clear) (hv : s.NextValid)
    (he : s.ended = false) (version : ℤ) (community : Bytes) (requestId : Int32) :
    ∃ t, s.Step (F := F) codec (.request version community requestId) t := by
  cases hnext : nextOid s.agent.values s.pos.arcs with
  | none => exact ⟨_, (step_request_iff hc hs).2 ⟨he, request_cases.2 (Or.inr ⟨hnext, rfl⟩)⟩⟩
  | some k =>
    obtain ⟨hmem, hlt, -⟩ := nextOid_eq_some_iff.1 hnext
    exact ⟨_, (step_request_iff hc hs).2 ⟨he, request_cases.2 (Or.inl ⟨k, hv he k hmem hlt, hnext, rfl⟩)⟩⟩

def AddsNoKey (s : WalkState) (t : WalkState) : Prop := ∀ k ∈ t.agent.values, k ∈ s.agent.values

/-- While no key is inserted each request uses up one of the remaining ones. -/
theorem step_remaining {codec : V2cCodec} (hc : codec.RoundTrips) {s t : WalkState} (hs : s.Clear) {o : WalkOp F}
    (hkeys : s.AddsNoKey t) (h : s.Step codec o t) :
    (if o.isRequest then 1 else 0) + t.walk.remaining ≤ s.walk.remaining := by
  cases o with
  | agent o =>
    obtain rfl : t = _ := h
    have hsub : (s.agent.op o).values.keys ⊆ s.agent.values.keys := fun k hk =>
      Finmap.mem_keys.2 (hkeys k (Finmap.mem_keys.1 hk))
    have hsup : s.agent.values.keys ⊆ (s.agent.op o).values.keys := fun k hk =>
      Finmap.mem_keys.2 (s.agent.op_mono o (Finmap.mem_keys.1 hk))
    exact (Nat.zero_add _).le.trans (Walk.remaining_grow (w := s.walk) hsup hsub).le
  | request version community requestId =>
    obtain ⟨he, ⟨k, hk, hnext, rfl⟩ | ⟨-, rfl⟩⟩ := step_request_cases hc hs h
    · obtain ⟨hmem, hlt, -⟩ := nextOid_eq_some_iff.1 hnext
      exact Walk.remaining_next (w := s.walk) he (Finmap.mem_keys.2 hmem) hlt
    · exact Walk.remaining_finish (w := s.walk) he

/-- What a step names without inserting it is in the map already. -/
theorem names_of_addsNoKey {P : Oid → Prop} {codec : V2cCodec} {s t : WalkState} {o : WalkOp F}
    (hs : s.ended = false → ∀ k ∈ s.agent.values, s.pos.arcs < k → P k) (hkeys : s.AddsNoKey t)
    (h : s.Step codec o t) : s.Names P o := by
  cases o with
  | agent o =>
    obtain rfl : t = _ := h
    exact fun he k hk hlt => hs he k (hkeys k (s.agent.mem_op_of_accepted o hk)) hlt
  | request version community requestId => trivial

theorem request_agent {codec : V2cCodec} (hc : codec.RoundTrips) {s t : WalkState} (hs : s.Clear) {version : ℤ}
    {community : Bytes} {requestId : Int32} (h : s.Step (F := F) codec (.request version community requestId) t) :
    t.agent = s.agent := by
  obtain ⟨-, ⟨k, hk, -, rfl⟩ | ⟨-, rfl⟩⟩ := step_request_cases hc hs h <;> rfl

theorem step_det {codec : V2cCodec} (hc : codec.RoundTrips) {s t t' : WalkState} (hs : s.Clear) {o : WalkOp F}
    (h : s.Step codec o t) (h' : s.Step codec o t') : t = t' := by
  cases o with
  | agent o => exact Eq.trans h (Eq.symm h')
  | request version community requestId =>
    obtain ⟨-, r, hr, rfl⟩ := (step_request_iff hc hs).1 h
    obtain ⟨-, r', hr', rfl⟩ := (step_request_iff hc hs).1 h'
    rw [hr] at hr'
    cases hr'
    rfl

/-! ### A refused OID ahead of the walk -/

/-- The walk is running towards an OID the library refuses. -/
def Blocked (s : WalkState) : Prop := s.ended = false ∧ ∃ k ∈ s.agent.values, s.pos.arcs < k ∧ ¬ IsValidOid k

/-- No step gets the walk past it. -/
theorem Blocked.step {codec : V2cCodec} (hc : codec.RoundTrips) {s t : WalkState} {o : WalkOp F} (hclear : s.Clear)
    (hs : s.Blocked) (h : s.Step codec o t) : t.Blocked := by
  obtain ⟨he, k, hk, hlt, hinvalid⟩ := hs
  cases o with
  | agent o =>
    obtain rfl : t = _ := h
    exact ⟨he, k, s.agent.op_mono o hk, hlt, hinvalid⟩
  | request version community requestId =>
    obtain ⟨-, ⟨k', hk', hnext, rfl⟩ | ⟨hnone, rfl⟩⟩ := step_request_cases hc hclear h
    · have hle : k' ≤ k := (nextOid_eq_some_iff.1 hnext).2.2 k hk hlt
      have hne : k' ≠ k := fun heq => hinvalid (heq ▸ hk')
      exact ⟨he, k, hk, lt_of_le_of_ne hle hne, hinvalid⟩
    · exact absurd hlt (nextOid_eq_none_iff.1 hnone k hk)

/-- A run is safe in every step, or ends blocked. -/
theorem blocked_or_safe {codec : V2cCodec} (hc : codec.RoundTrips) {s t : WalkState} {ops : List (WalkOp F)}
    (h : Run (Step codec) s ops t) (hs : s.Clear) (hf : Along (Step codec) (fun s o _ => s.Faithful o) s ops) :
    t.Blocked ∨ Along (Step codec) (fun s o _ => s.Safe o) s ops := by
  -- a step that is not safe blocks the walk, and it stays blocked for the rest of the run
  induction h with
  | nil s => exact Or.inr trivial
  | @cons s u t o ops hstep hrun ih =>
    obtain ⟨ho, hrest⟩ := hf u hstep
    have hu : u.Clear := hs.step hc ho hstep
    rcases ih hu hrest with ht | hsafe
    · exact Or.inl ht
    by_cases hsafe' : s.Safe o
    · refine Or.inr fun u' hu' => ?_
      rw [step_det hc hs hu' hstep]
      exact ⟨hsafe', hsafe⟩
    · have hblocked : u.Blocked := by
        cases o with
        | agent o =>
          obtain rfl : u = _ := hstep
          simp only [Safe, Names, not_forall] at hsafe'
          obtain ⟨he, k, hk, hlt, hinvalid⟩ := hsafe'
          exact ⟨he, k, s.agent.mem_op_of_accepted o hk, hlt, hinvalid⟩
        | request version community requestId => exact absurd trivial hsafe'
      refine Or.inl (hrun.invariant_along (I := fun s => s.Clear ∧ s.Blocked) ?_ ⟨hu, hblocked⟩ hrest).2
      exact fun _ _ _ hs ho ht => ⟨hs.1.step hc ho ht, hs.2.step hc hs.1 ht⟩

/-- Requests alone take a blocked walk to a request that is not answered. -/
theorem Blocked.exists_stuck {codec : V2cCodec} (hc : codec.RoundTrips) {s : WalkState} (hclear : s.Clear)
    (hs : s.Blocked) :
    ∃ more t, Run (Step (F := F) codec) s more t ∧ Along (Step codec) (fun s _ t => s.AddsNoKey t) s more ∧
      t.ended = false ∧ ¬ ∃ u, t.Step (F := F) codec (.request 1 [] 0) u := by
  -- every answered request leaves fewer of them, and the walk still blocked
  induction hn : s.walk.remaining using Nat.strong_induction_on generalizing s with
  | _ n ih =>
    by_cases hu : ∃ u, s.Step (F := F) codec (.request 1 [] 0) u
    · obtain ⟨u, hu⟩ := hu
      have hkeys : s.AddsNoKey u := fun k hk => request_agent hc hclear hu ▸ hk
      have hlt : u.walk.remaining < n := by
        have := step_remaining hc hclear hkeys hu
        simp only [WalkOp.isRequest, if_true] at this
        omega
      obtain ⟨more, t, hrun, halong, ht⟩ :=
        ih _ hlt (hclear.step hc (o := .request 1 [] 0) trivial hu) (hs.step hc hclear hu) rfl
      refine ⟨.request 1 [] 0 :: more, t, Run.cons hu hrun, fun u' hu' => ?_, ht⟩
      rw [step_det hc hclear hu' hu]
      exact ⟨hkeys, halong⟩
    · exact ⟨[], s, Run.nil s, trivial, hs.1, hu⟩

/-! ### The walk is complete -/

/-- What a walk from `pos` over `initial` owes in state `s`: increasing OIDs, at its end each initial one above the
start once, and an end after finitely many more requests, all answered, as long as no key is inserted. -/
def Complete (F : Type) [F64 F] (codec : V2cCodec) (initial : Values) (pos : Oid) (s : WalkState) : Prop :=
  s.returned.Pairwise (· < ·) ∧
  (s.ended = true → ∀ k ∈ initial, pos < k → s.returned.count k = 1) ∧
  ∀ (more : List (WalkOp F)) (t : WalkState), Run (Step codec) s more t →
    Along (Step codec) (fun s _ t => s.AddsNoKey t) s more →
    more.countP WalkOp.isRequest ≤ s.walk.remaining ∧
      (t.ended = false → ∀ version community requestId,
        ∃ u, t.Step (F := F) codec (.request version community requestId) u)

/-- A walk over a map of OIDs that BER can carry is complete if every PUT accepted while it runs names only such OIDs
above its position; and where BER can carry whatever the library accepts of them, only then. -/
theorem walk_complete (codec : V2cCodec) (hc : codec.RoundTrips) (agent : Agent)
    (hkeys : ∀ k ∈ agent.values, Carried k) (pos : ObjectIdentifier) (hpos : Carried pos.arcs) (ops : List (WalkOp F))
    (s : WalkState) (h : Run (Step codec) (start agent pos) ops s) :
    (Along (Step codec) (fun s o _ => s.Spares o) (start agent pos) ops →
      Complete F codec agent.values pos.arcs s) ∧
    (Along (Step codec) (fun s o _ => s.Faithful o) (start agent pos) ops → Complete F codec agent.values pos.arcs s →
      Along (Step codec) (fun s o _ => s.Spares o) (start agent pos) ops) := by
  have hstart : (start agent pos).Clear := ⟨hpos, fun _ k hk _ _ => hkeys k hk⟩
  constructor
  · intro hspares
    -- what carries the run: clear and valid ahead, and every initial key covered up to the position
    obtain ⟨hclear, hnext, hcovers⟩ : s.Clear ∧ s.NextValid ∧ Walk.Covers pos.arcs agent.values.keys s.walk :=
      h.invariant_along (I := fun s => s.Clear ∧ s.NextValid ∧ Walk.Covers pos.arcs agent.values.keys s.walk)
        (fun _ _ _ hs ho ht => ⟨hs.1.step hc ho.faithful ht, step_nextValid hc hs.1 hs.2.1 ho.safe ht,
          hs.2.2.move (step_moves hc hs.1 ht)⟩)
        ⟨hstart, fun _ k hk _ => (hkeys k hk).valid, Walk.covers_start _ _⟩ hspares
    refine ⟨hcovers.increasing, fun he k hk hlt => hcovers.count_eq_one he (Finmap.mem_keys.2 hk) hlt, ?_⟩
    intro more t hrun halong
    have hkeep : ∀ (s : WalkState) (o : WalkOp F) (t : WalkState), s.Clear ∧ s.NextValid → s.AddsNoKey t →
        s.Step codec o t → t.Clear ∧ t.NextValid := fun _ _ _ hs ho ht =>
      ⟨hs.1.step hc (names_of_addsNoKey hs.1.ahead ho ht) ht,
        step_nextValid hc hs.1 hs.2 (names_of_addsNoKey hs.2 ho ht) ht⟩
    have hbound := hrun.countP_add_le (I := fun s => s.Clear ∧ s.NextValid) (p := WalkOp.isRequest)
      (μ := fun s => s.walk.remaining)
      (fun _ _ _ hs ho ht => ⟨hkeep _ _ _ hs ho ht, step_remaining hc hs.1 ho ht⟩) ⟨hclear, hnext⟩ halong
    obtain ⟨ht, htnext⟩ := hrun.invariant_along hkeep ⟨hclear, hnext⟩ halong
    exact ⟨by omega, fun he version community requestId => exists_answer hc ht htnext he version community requestId⟩
  · rintro hf ⟨-, -, hcont⟩
    have hclear : s.Clear := h.invariant_along (fun _ _ _ hs ho ht => hs.step hc ho ht) hstart hf
    rcases blocked_or_safe hc h hstart hf with hs | hsafe
    · obtain ⟨more, t, hrun, halong, he, hstuck⟩ := hs.exists_stuck (F := F) hc hclear
      exact absurd ((hcont more t hrun halong).2 he 1 [] 0) hstuck
    · exact Along.imp (I := fun _ => True) (fun _ _ _ _ _ _ => trivial) (fun _ _ _ _ _ ho => ho.1.spares ho.2) trivial
        (along_and.2 ⟨hsafe, hf⟩)

end WalkState

end

/-! ### Two walks -/

section Examples

instance countableUInt8 : Countable UInt8 := Function.Injective.countable (f := UInt8.toNat) fun _ _ => UInt8.toNat.inj

instance countableUInt32 : Countable UInt32 :=
  Function.Injective.countable (f := UInt32.toNat) fun _ _ => UInt32.toNat.inj

instance countableInt32 : Countable Int32 := Function.Injective.countable (f := Int32.toInt) fun _ _ => Int32.toInt.inj

instance [OidRule] : Countable ObjectIdentifier :=
  Function.Injective.countable (f := ObjectIdentifier.arcs) fun ⟨_, _⟩ ⟨_, _⟩ h => by cases h; rfl

deriving instance Countable for ObjectSyntax, VarBindValue, VarBind, Pdu, BulkPdu, Pdus, V2cMessage

/-- A codec that sends two messages as given and every other one as some longer string. -/
private theorem exists_codec (m₀ m₁ : V2cMessage) {b₀ b₁ : Bytes} (hm : m₁ ≠ m₀) (hb : b₀ ≠ b₁) :
    ∃ codec : V2cCodec, codec.RoundTrips ∧ codec.encode m₀ = some b₀ ∧ codec.encode m₁ = some b₁ := by
  classical
  obtain ⟨f, hf⟩ := exists_injective_nat V2cMessage
  let enc (m : V2cMessage) : Bytes :=
    if m = m₀ then b₀ else if m = m₁ then b₁ else List.replicate (b₀.length + b₁.length + 1 + f m) 0
  have henc₀ : enc m₀ = b₀ := if_pos rfl
  have henc₁ : enc m₁ = b₁ := (if_neg hm).trans (if_pos rfl)
  have hlong : ∀ m, m ≠ m₀ → m ≠ m₁ → (enc m).length = b₀.length + b₁.length + 1 + f m := by
    intro m h₀ h₁
    simp only [enc, if_neg h₀, if_neg h₁, List.length_replicate]
  have henc : Function.Injective enc := by
    intro m m' h
    have hlen := congrArg List.length h
    by_cases h₀ : m = m₀ <;> by_cases h₀' : m' = m₀
    · rw [h₀, h₀']
    · by_cases h₁' : m' = m₁
      · rw [h₀, h₁', henc₀, henc₁] at h; exact absurd h hb
      · rw [h₀, henc₀, hlong m' h₀' h₁'] at hlen; omega
    · by_cases h₁ : m = m₁
      · rw [h₁, h₀', henc₀, henc₁] at h; exact absurd h.symm hb
      · rw [h₀', henc₀, hlong m h₀ h₁] at hlen; omega
    · by_cases h₁ : m = m₁ <;> by_cases h₁' : m' = m₁
      · rw [h₁, h₁']
      · rw [h₁, henc₁, hlong m' h₀' h₁'] at hlen; omega
      · rw [h₁', henc₁, hlong m h₀ h₁] at hlen; omega
      · rw [hlong m h₀ h₁, hlong m' h₀' h₁'] at hlen; exact hf (by omega)
  refine ⟨⟨fun b => if h : ∃ m, enc m = b then some h.choose else none, fun m => some (enc m)⟩,
    ⟨fun m _ => ⟨_, rfl⟩, fun m b _ h => ?_⟩, ?_, ?_⟩
  · obtain rfl := Option.some.inj h
    have hex : ∃ m', enc m' = enc m := ⟨m, rfl⟩
    simp only [hex, dif_pos]
    exact congrArg some (henc hex.choose_spec)
  · exact congrArg some henc₀
  · exact congrArg some henc₁

def ifOperStatus : ObjectIdentifier := ⟨[1, 3, 6, 1, 2, 1, 2, 2, 1, 8], by decide⟩

def ifOperStatus1 : ObjectIdentifier := ⟨[1, 3, 6, 1, 2, 1, 2, 2, 1, 8, 1], by decide⟩

def ifOperStatusRequest : V2cMessage :=
  ⟨1, [0x70, 0x75, 0x62, 0x6C, 0x69, 0x63], .getNextRequest (getOne 7 ifOperStatus)⟩

def ifOperStatusReply : V2cMessage :=
  ⟨1, [0x70, 0x75, 0x62, 0x6C, 0x69, 0x63],
    .response { requestId := 7, errorStatus := 0, errorIndex := 0
                variableBindings := [{ name := ifOperStatus1, value := sent 1 }] }⟩

def ifOperStatusRequestBytes : Bytes :=
  [0x30, 0x27, 0x02, 0x01, 0x01, 0x04, 0x06, 0x70, 0x75, 0x62, 0x6C, 0x69, 0x63, 0xA1, 0x1A, 0x02, 0x01, 0x07, 0x02,
    0x01, 0x00, 0x02, 0x01, 0x00, 0x30, 0x0F, 0x30, 0x0D, 0x06, 0x09, 0x2B, 0x06, 0x01, 0x02, 0x01, 0x02, 0x02, 0x01,
    0x08, 0x05, 0x00]

def ifOperStatusReplyBytes : Bytes :=
  [0x30, 0x29, 0x02, 0x01, 0x01, 0x04, 0x06, 0x70, 0x75, 0x62, 0x6C, 0x69, 0x63, 0xA2, 0x1C, 0x02, 0x01, 0x07, 0x02,
    0x01, 0x00, 0x02, 0x01, 0x00, 0x30, 0x11, 0x30, 0x0F, 0x06, 0x0A, 0x2B, 0x06, 0x01, 0x02, 0x01, 0x02, 0x02, 0x01,
    0x08, 0x01, 0x02, 0x01, 0x01]

theorem walk_complete_first : ∃ codec : V2cCodec, codec.RoundTrips ∧
    codec.encode ifOperStatusRequest = some ifOperStatusRequestBytes ∧
    codec.encode ifOperStatusReply = some ifOperStatusReplyBytes ∧
    ∃ s, Run (WalkState.Step (F := ℚ) codec) (WalkState.start (Agent.start ℚ) ifOperStatus)
        [.request 1 [0x70, 0x75, 0x62, 0x6C, 0x69, 0x63] 7] s ∧
      s.returned = [[1, 3, 6, 1, 2, 1, 2, 2, 1, 8, 1]] ∧
      WalkState.Complete ℚ codec (initialValues ℚ) ifOperStatus.arcs s := by
  obtain ⟨codec, hc, h₀, h₁⟩ := exists_codec ifOperStatusRequest ifOperStatusReply (by decide)
    (show ifOperStatusRequestBytes ≠ ifOperStatusReplyBytes by decide)
  have hnext : nextOid (initialValues ℚ) ifOperStatus.arcs = some ifOperStatus1.arcs := by
    have hkeys : ifOperStatus1.arcs ∈ (initialValues ℚ).keys ∧
        ∀ k ∈ (initialValues ℚ).keys, ifOperStatus.arcs < k → ifOperStatus1.arcs ≤ k := by decide +kernel
    exact nextOid_eq_some_iff.2 ⟨Finmap.mem_keys.1 hkeys.1, by decide, fun k hk => hkeys.2 k (Finmap.mem_keys.2 hk)⟩
  have hclear : (WalkState.start (Agent.start ℚ) ifOperStatus).Clear :=
    ⟨by decide, fun _ k hk _ _ => initialValues_carried k hk⟩
  have hrun : Run (WalkState.Step (F := ℚ) codec) (WalkState.start (Agent.start ℚ) ifOperStatus)
      [.request 1 [0x70, 0x75, 0x62, 0x6C, 0x69, 0x63] 7]
      { WalkState.start (Agent.start ℚ) ifOperStatus with pos := ifOperStatus1, returned := [ifOperStatus1.arcs] } :=
    Run.cons ((WalkState.step_request_iff hc hclear).2 ⟨rfl, WalkState.request_cases.2
      (Or.inl ⟨_, ifOperStatus1.valid, hnext, rfl⟩)⟩) (Run.nil _)
  exact ⟨codec, hc, h₀, h₁, _, hrun, rfl, (WalkState.walk_complete codec hc (Agent.start ℚ) initialValues_carried
    ifOperStatus (by decide) _ _ hrun).1 fun _ _ => ⟨trivial, trivial⟩⟩

def lastReading : ObjectIdentifier := ⟨pole 3 rmsVoltage, (computed_carried _ (by decide)).valid⟩

/-- After `{"3.1": 1}` a walk at the last PDU2-MIB reading gets no answer, and no end. -/
theorem walk_stops_at_refused_oid : ∃ codec : V2cCodec, codec.RoundTrips ∧
    (∀ k ∈ (Agent.start ℚ).values, Carried k) ∧ Carried lastReading.arcs ∧
    ∃ s, Run (WalkState.Step codec) (WalkState.start (Agent.start ℚ) lastReading)
        [.agent (.put [("3.1", 1)] : Op ℚ)] s ∧
      s.ended = false ∧
      (∀ version community requestId, ¬ ∃ t, s.Step (F := ℚ) codec (.request version community requestId) t) ∧
      ¬ WalkState.Complete ℚ codec (Agent.start ℚ).values lastReading.arcs s := by
  obtain ⟨codec, hc, -, -⟩ := exists_codec ifOperStatusRequest ifOperStatusReply (by decide)
    (show ifOperStatusRequestBytes ≠ ifOperStatusReplyBytes by decide)
  have hkeys : [3, 1] ∈ ((Agent.start ℚ).op (.put [("3.1", 1)] : Op ℚ)).values.keys ∧
      ∀ k ∈ ((Agent.start ℚ).op (.put [("3.1", 1)] : Op ℚ)).values.keys, lastReading.arcs < k → [3, 1] = k := by
    decide +kernel
  have hahead : ∀ k ∈ ((Agent.start ℚ).op (.put [("3.1", 1)] : Op ℚ)).values, lastReading.arcs < k → [3, 1] = k :=
    fun k hk => hkeys.2 k (Finmap.mem_keys.2 hk)
  have hclear : WalkState.Clear { WalkState.start (Agent.start ℚ) lastReading with
      agent := (Agent.start ℚ).op (.put [("3.1", 1)] : Op ℚ) } :=
    ⟨by decide, fun _ k hk hlt hvalid => absurd (hahead k hk hlt ▸ hvalid) (by decide)⟩
  have hstuck : ∀ version community requestId, ¬ ∃ t, WalkState.Step (F := ℚ) codec
      { WalkState.start (Agent.start ℚ) lastReading with
        agent := (Agent.start ℚ).op (.put [("3.1", 1)] : Op ℚ) } (.request version community requestId) t := by
    rintro version community requestId ⟨t, ht⟩
    have hnext : nextOid ((Agent.start ℚ).op (.put [("3.1", 1)] : Op ℚ)).values lastReading.arcs = some [3, 1] :=
      nextOid_eq_some_iff.2 ⟨Finmap.mem_keys.1 hkeys.1, by decide, fun k hk hlt => (hahead k hk hlt).le⟩
    obtain ⟨-, ⟨k, hk, h, -⟩ | ⟨h, -⟩⟩ := WalkState.step_request_cases hc hclear ht
    · obtain rfl : [3, 1] = k := Option.some.inj (hnext.symm.trans h)
      exact absurd hk (by decide)
    · exact absurd (hnext.symm.trans h) (by simp)
  refine ⟨codec, hc, initialValues_carried, by decide, _, Run.cons rfl (Run.nil _), rfl, hstuck, fun hcomplete => ?_⟩
  exact hstuck 1 [] 0 ((hcomplete.2.2 [] _ (Run.nil _) trivial).2 rfl 1 [] 0)

end Examples

end EmsFixtures.Snmp
