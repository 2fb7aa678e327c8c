import EmsFixtures.Snmp.Sections

/-!
# PUT batches among the tasks

However the tasks interleave, the agent is where whole operations lead whenever its locks are free (`agent_serial`), and
what a datagram is answered from is one such value map (`exists_serial_snapshot`).  A malformed batch does nothing, an
accepted one writes all it names, and no tick finds a value that a PUT has written without its OID among the driven ones
(`puts_all_or_nothing`).
-/

namespace EmsFixtures.Snmp

open Locks HashMap Runs

variable {F : Type} [F64 F] {ι : Type} [DecidableEq ι] {data : shared.AllData} {jobs : ι → Job F}

/-! ### Whole operations -/

/-- The operation that a job performs on the agent; a store has read a map that `seen` admits. -/
def Job.Performs (seen : Values → Prop) : Job F → Op F → Prop
  | putOids body, o => o = .put body
  | follow load nodeW _, o => ∃ values, seen values ∧ o = .store load nodeW values
  | tickTask _, o => o = .tickTask
  | datagram _, _ => False
  | v3Datagram .., _ => False

/-- The value maps on the way of a history. -/
def SeenIn (a : Agent) (history : List (ι × Op F)) (values : Values) : Prop :=
  ∃ pre b, pre <+: history ∧ Run Agent.Step a (pre.map Prod.snd) b ∧ b.values = values

/-- Whole operations of jobs, none of them twice, lead from `a` to `b`, each store with readings of a map on the way. -/
structure Serial (jobs : ι → Job F) (a : Agent) (history : List (ι × Op F)) (b : Agent) : Prop where
  nodup : (history.map Prod.fst).Nodup
  performs : ∀ pre e post, history = pre ++ e :: post → (jobs e.1).Performs (SeenIn a pre) e.2
  run : Run Agent.Step a (history.map Prod.snd) b

omit [DecidableEq ι] in
theorem SeenIn.mono {a : Agent} {history history' : List (ι × Op F)} {values : Values} (h : SeenIn a history values)
    (hle : history <+: history') : SeenIn a history' values := by
  obtain ⟨pre, b, hpre, hrun⟩ := h
  exact ⟨pre, b, hpre.trans hle, hrun⟩

omit [DecidableEq ι] in
theorem Serial.seen {a b : Agent} {history : List (ι × Op F)} (h : Serial jobs a history b) :
    SeenIn a history b.values :=
  ⟨history, b, List.prefix_rfl, h.run, rfl⟩

omit [DecidableEq ι] in
theorem Serial.nil (a : Agent) : Serial jobs a [] a := by
  refine ⟨List.nodup_nil, fun pre e post h => ?_, Run.nil a⟩
  simp at h

omit [DecidableEq ι] in
theorem Serial.snoc {a b : Agent} {history : List (ι × Op F)} {i : ι} {o : Op F} (h : Serial jobs a history b)
    (hi : i ∉ history.map Prod.fst) (ho : (jobs i).Performs (SeenIn a history) o) :
    Serial jobs a (history ++ [(i, o)]) (b.op o) := by
  refine ⟨?_, fun pre e post heq => ?_, ?_⟩
  · rw [List.map_append]
    refine h.nodup.append (List.nodup_singleton i) fun j hj hj' => ?_
    obtain rfl := List.mem_singleton.1 hj'
    exact hi hj
  · rcases List.eq_nil_or_concat post with rfl | ⟨post, e', rfl⟩
    · obtain ⟨rfl, he⟩ := List.append_inj' heq rfl
      obtain rfl := (List.cons_eq_cons.1 he).1
      exact ho
    · rw [List.concat_eq_append, ← List.cons_append, ← List.append_assoc] at heq
      obtain ⟨rfl, -⟩ := List.append_inj' heq rfl
      exact h.performs pre e post rfl
  · rw [List.map_append]
    exact run_concat_iff.2 ⟨b, h.run, rfl⟩

section

variable [OidRule] {lib : Libraries}

/-- The task of a malformed batch is over before it begins. -/
theorem task_malformed {body : SetOids} (h : parseBody body = none) :
    (Job.putOids body : Job F).task lib = .done (.status .unprocessableEntity) := by
  show (Task.putOids body).bind _ = _
  unfold Task.putOids
  rw [h]
  rfl

/-- A job's task between sections, ahead of the job's operation. -/
inductive Ahead (lib : Libraries) (seen : Values → Prop) : Job F → Task Outcome → Prop
  | start (job : Job F) : Ahead lib seen job (job.task lib)
  | store (load : PduLoad F) (nodeW : F) (order : Task.Iteration) (values : Values) (h : seen values) :
      Ahead lib seen (.follow load nodeW order) (do
        Task.store order (readings load nodeW values)
        pure .finished)

omit [DecidableEq ι] in
theorem Ahead.mono {seen seen' : Values → Prop} {job : Job F} {task : Task Outcome} (h : Ahead lib seen job task)
    (hseen : ∀ values, seen values → seen' values) : Ahead lib seen' job task := by
  cases h with
  | start => exact .start job
  | store load nodeW order values h => exact .store load nodeW order values (hseen values h)

/-- A section has performed the job's operation, and nothing is left to write. -/
def Performed (seen : Values → Prop) (job : Job F) (d : shared.AllData) (out : Task Outcome × shared.AllData) : Prop :=
  ∃ o, job.Performs seen o ∧ (agentOf d).op o = agentOf out.2 ∧ ∃ growing, Reader growing out.1

omit [DecidableEq ι] in
omit [OidRule] in
theorem performed_of_ends {R : Type} {seen : Values → Prop} {job : Job F} {p : Task R} (f : R → Outcome)
    {d d' : shared.AllData} {o : Op F} {r : R} (hends : ends ∅ p d = (.done r, d')) (ho : job.Performs seen o)
    (hagent : agentOf d' = (agentOf d).op o) : Performed seen job d (ends ∅ (p.bind fun r => .done (f r)) d) := by
  rw [ends_map, hends]
  exact ⟨o, ho, hagent.symm, true, trivial⟩

omit [DecidableEq ι] in
/-- A section performs the job's operation, or leaves the agent as it is. -/
theorem Ahead.step {seen : Values → Prop} {job : Job F} {task : Task Outcome} (h : Ahead lib seen job task)
    {d : shared.AllData} (hd : seen (d .values)) :
    (agentOf (ends ∅ task d).2 = agentOf d ∧
        (Ahead lib seen job (ends ∅ task d).1 ∨ ∃ growing, Reader growing (ends ∅ task d).1)) ∨
      Performed seen job d (ends ∅ task d) := by
  have hread : ∀ {growing : Bool} {task : Task Outcome}, Reader growing task →
      agentOf (ends ∅ task d).2 = agentOf d ∧ ∃ growing, Reader growing (ends ∅ task d).1 := by
    intro growing task htask
    obtain ⟨hdata, hrest⟩ := htask.ends ∅ d
    rw [hdata]
    exact ⟨rfl, hrest⟩
  cases h with
  | store load nodeW order values h =>
    obtain ⟨d', hends, hagent⟩ := Task.ends_store (d := d) order (readings load nodeW values)
    exact Or.inr (performed_of_ends (fun _ => Outcome.finished) hends ⟨values, h, rfl⟩ hagent)
  | start =>
    cases job with
    | putOids body =>
      rcases hparse : parseBody body with _ | parsed
      · rw [task_malformed hparse]
        exact Or.inl ⟨rfl, Or.inr ⟨true, trivial⟩⟩
      · obtain ⟨d', hends, hagent⟩ := Task.ends_putOids (d := d) hparse
        exact Or.inr (performed_of_ends (o := .put body) Outcome.status hends rfl hagent)
    | follow load nodeW order =>
      have hends := (ends_map ∅ (Task.follow load nodeW order) (fun _ => Outcome.finished)) d
      rw [Task.ends_follow] at hends
      have htask : (Job.follow load nodeW order).task lib =
          (Task.follow load nodeW order).bind fun _ => .done .finished := rfl
      rw [htask, hends]
      exact Or.inl ⟨rfl, Or.inl (.store load nodeW order (d .values) hd)⟩
    | tickTask order =>
      obtain ⟨d', hends, hagent⟩ := Task.ends_tickTask (F := F) (d := d) order
      exact Or.inr (performed_of_ends (o := .tickTask) (fun _ => Outcome.finished) hends rfl hagent)
    | datagram bytes =>
      obtain ⟨hagent, hrest⟩ := hread ((Task.reader_handleDatagram lib.v2c bytes).map Outcome.reply)
      exact Or.inl ⟨hagent, Or.inr hrest⟩
    | v3Datagram bytes env =>
      obtain ⟨hagent, hrest⟩ := hread ((Task.reader_handleV3Datagram lib.v3 lib.crypto bytes env).map Outcome.reply)
      exact Or.inl ⟨hagent, Or.inr hrest⟩

/-- Between sections the agent is where a history leads, and every job is ahead of its operation or will write nothing
more. -/
structure Records (lib : Libraries) (jobs : ι → Job F) (a : Agent) (history : List (ι × Op F))
    (c : Atomic shared ι Outcome) : Prop where
  serial : Serial jobs a history (agentOf c.data)
  job : ∀ i, (Ahead lib (SeenIn a history) (jobs i) (c.task i) ∧ i ∉ history.map Prod.fst) ∨
    ∃ growing, Reader growing (c.task i)

section Records

variable {a : Agent} {history : List (ι × Op F)} {c : Atomic shared ι Outcome} {i : ι}

/-- A section that leaves the agent as it is. -/
theorem Records.stay (h : Records lib jobs a history c) (hagent : agentOf (c.next i).data = agentOf c.data)
    (hi : (Ahead lib (SeenIn a history) (jobs i) ((c.next i).task i) ∧ i ∉ history.map Prod.fst) ∨
      ∃ growing, Reader growing ((c.next i).task i)) : Records lib jobs a history (c.next i) := by
  refine ⟨hagent ▸ h.serial, fun j => ?_⟩
  by_cases hj : j = i
  · subst hj
    exact hi
  · rw [c.next_task_other hj]
    exact h.job j

/-- A section that performs its job's operation. -/
theorem Records.perform (h : Records lib jobs a history c) (hi : i ∉ history.map Prod.fst) {o : Op F}
    (ho : (jobs i).Performs (SeenIn a history) o) (hagent : (agentOf c.data).op o = agentOf (c.next i).data)
    (hread : ∃ growing, Reader growing ((c.next i).task i)) :
    Records lib jobs a (history ++ [(i, o)]) (c.next i) := by
  refine ⟨hagent ▸ h.serial.snoc hi ho, fun j => ?_⟩
  by_cases hj : j = i
  · subst hj
    exact Or.inr hread
  · rw [c.next_task_other hj]
    refine (h.job j).imp_left fun ⟨hahead, hnot⟩ => ⟨hahead.mono fun values hseen => ?_, ?_⟩
    · exact hseen.mono (List.prefix_append history _)
    · simp only [List.map_append, List.mem_append, not_or]
      exact ⟨hnot, by simpa using hj⟩

theorem Records.next (h : Records lib jobs a history c) (i : ι) : ∃ history', Records lib jobs a history' (c.next i) := by
  have htask := c.next_task_self i
  rcases h.job i with ⟨hahead, hi⟩ | ⟨growing, hread⟩
  · rcases hahead.step h.serial.seen with ⟨hagent, hnext⟩ | ⟨o, ho, hagent, hnext⟩
    · rw [← htask] at hnext
      exact ⟨history, h.stay hagent (hnext.imp_left fun hnext => ⟨hnext, hi⟩)⟩
    · exact ⟨_, h.perform hi ho hagent (htask ▸ hnext)⟩
  · obtain ⟨hdata, hnext⟩ := hread.ends ∅ c.data
    exact ⟨history, h.stay (congrArg agentOf hdata) (Or.inr (htask ▸ hnext))⟩

end Records

theorem exists_history {sections : List ι} {c : Atomic shared ι Outcome}
    (h : Run AtomicStep { data, task := fun i => (jobs i).task lib } sections c) :
    ∃ history, Records lib jobs (agentOf data) history c := by
  refine h.invariant (I := fun c => ∃ history, Records lib jobs (agentOf data) history c) ?_ ?_
  · rintro c i _ ⟨history, hrecords⟩ rfl
    exact hrecords.next i
  · exact ⟨[], Serial.nil _, fun i => Or.inl ⟨.start (jobs i), List.not_mem_nil⟩⟩

/-- Whenever neither lock is held the agent is where whole operations lead. -/
theorem agent_serial {labels : List (ι × Action shared)} {s : State shared ι Outcome}
    (h : Run Step (agentStart lib data jobs) labels s) (hdriven : s.holder .driven = none)
    (hvalues : s.holder .values = none) : ∃ history, Serial jobs (agentOf data) history (agentOf s.data) := by
  obtain ⟨sections, c, hc, hmatches⟩ := exists_atomicRun (fun i => (jobs i).follows lib) h
  obtain ⟨history, hserial, -⟩ := exists_history hc
  have hagent : agentOf s.data = agentOf c.data := by
    unfold agentOf
    rw [hmatches.free .driven hdriven, hmatches.free .values hvalues]
  exact ⟨history, hagent ▸ hserial⟩

/-! ### What the readers look at -/

/-- A job that answers a datagram. -/
def Job.Responds : Job F → Prop
  | datagram _ => True
  | v3Datagram .. => True
  | _ => False

omit [DecidableEq ι] in
theorem Job.Responds.reader {job : Job F} (h : job.Responds) : Reader true (job.task lib) := by
  cases job with
  | datagram bytes => exact (Task.reader_handleDatagram lib.v2c bytes).map _
  | v3Datagram bytes env => exact (Task.reader_handleV3Datagram lib.v3 lib.crypto bytes env).map _
  | putOids body => exact h.elim
  | follow load nodeW order => exact h.elim
  | tickTask order => exact h.elim

/-- The reply to a datagram over one value map. -/
def Job.replyOver (lib : Libraries) (s : AgentState) (values : Values) : Job F → Outcome
  | datagram bytes => .reply (handleDatagram lib.v2c bytes values)
  | v3Datagram bytes env => .reply (handleV3Datagram lib.v3 lib.crypto bytes s env values)
  | _ => .finished

omit [DecidableEq ι] in
theorem Job.Responds.alone {job : Job F} (h : job.Responds) (d : shared.AllData) :
    (alone (job.task lib) d).1 = job.replyOver lib (d .agentState) (d .values) := by
  cases job with
  | datagram bytes =>
    show (Locks.alone ((Task.handleDatagram lib.v2c bytes).bind fun r => .done (Outcome.reply r)) d).1 = _
    rw [alone_bind, Task.alone_handleDatagram]
    rfl
  | v3Datagram bytes env =>
    show (Locks.alone ((Task.handleV3Datagram lib.v3 lib.crypto bytes env).bind fun r =>
      .done (Outcome.reply r)) d).1 = _
    rw [alone_bind, Task.alone_handleV3Datagram]
    rfl
  | putOids body => exact h.elim
  | follow load nodeW order => exact h.elim
  | tickTask order => exact h.elim

omit [OidRule] in
/-- The tasks leave the agent's state as it is. -/
theorem ends_agentState {R : Type} (held : Finset Lock) (p : Task R) (d : shared.AllData) :
    (ends held p d).2 .agentState = d .agentState := by
  induction p generalizing held d with
  | done r => rfl
  | acquire l next ih => exact ih _ d
  | release l next ih =>
    by_cases hempty : held.erase l = ∅
    · rw [ends_release_last hempty]
    · rw [ends_release hempty]
      exact ih _ d
  | ask l q next ih => exact ih _ _ d
  | write l w next ih =>
    refine (ih held _).trans ?_
    cases l with
    | agentState => exact w.elim
    | driven => rfl
    | values => rfl

omit [F64 F] in
omit [OidRule] in
theorem atomicRun_agentState {task : ι → Task Outcome} {sections : List ι} {c : Atomic shared ι Outcome}
    (h : Run AtomicStep { data, task } sections c) : c.data .agentState = data .agentState := by
  have hkeep : ∀ (c : Atomic shared ι Outcome) (i : ι) (c' : Atomic shared ι Outcome),
      c.data .agentState = data .agentState → AtomicStep c i c' → c'.data .agentState = data .agentState := by
    rintro c i _ hc rfl
    exact (ends_agentState ∅ _ _).trans hc
  exact h.invariant hkeep rfl

/-- A datagram is answered from one value map, that after some whole operations of the other tasks. -/
theorem exists_serial_snapshot {labels : List (ι × Action shared)} {s : State shared ι Outcome}
    (h : Run Step (agentStart lib data jobs) labels s) {i : ι} (hi : (jobs i).Responds) :
    ∃ history a, Serial jobs (agentOf data) history a ∧
      (∀ pre u, Asks (agentStart lib data jobs) labels i .values pre u → u.data .values = a.values) ∧
      ∀ r, s.task i = .done r → r = (jobs i).replyOver lib (data .agentState) a.values := by
  obtain ⟨sections, c, hc, hasks, hends⟩ := exists_snapshot (fun j => (jobs j).follows lib) h hi.reader
  obtain ⟨history, hserial, -⟩ := exists_history hc
  refine ⟨history, agentOf c.data, hserial, fun pre u => hasks .values pre u, fun r hr => ?_⟩
  rw [← hends r hr, hi.alone, atomicRun_agentState hc]
  rfl

/-! ### What a PUT writes -/

omit [OidRule] in
theorem mem_parsed {body : SetOids} {parsed : List (Oid × Int64)} (h : parseBody body = some parsed)
    {e : String × Int64} (he : e ∈ body) : ∃ oid, parseOid e.1 = some oid ∧ (oid, e.2) ∈ parsed := by
  unfold parseBody at h
  induction body generalizing parsed with
  | nil => cases he
  | cons e' body ih =>
    rw [List.mapM_cons] at h
    simp only [Option.bind_eq_bind, Option.bind_eq_some_iff, Option.map_eq_some_iff] at h
    obtain ⟨_, ⟨oid, hoid, rfl⟩, rest, hrest, hparsed⟩ := h
    cases hparsed
    rcases List.mem_cons.1 he with rfl | he
    · exact ⟨oid, hoid, List.mem_cons_self⟩
    · obtain ⟨oid', hoid', hmem⟩ := ih hrest he
      exact ⟨oid', hoid', List.mem_cons_of_mem _ hmem⟩

theorem always_put {body : SetOids} {parsed : List (Oid × Int64)} (h : parseBody body = some parsed)
    {e : Oid × Int64} (he : e ∈ parsed) : Prog.Always (.write .values e) ((Job.putOids body : Job F).task lib) ∧
      Prog.Always (.write .driven e.1) ((Job.putOids body : Job F).task lib) := by
  have halways : ∀ a : Action shared, a = .write .values e ∨ a = .write .driven e.1 →
      Prog.Always a ((Job.putOids body : Job F).task lib) := by
    intro a ha
    refine Prog.Always.bind_left (p := Task.putOids body) ?_ _
    unfold Task.putOids
    rw [h]
    refine Or.inr (Or.inr (Prog.Always.bind_left (Prog.Always.forM he ?_) _))
    rcases ha with rfl | rfl
    · exact Or.inl rfl
    · exact Or.inr (Or.inl rfl)
  exact ⟨halways _ (Or.inl rfl), halways _ (Or.inr rfl)⟩

/-- Every value is written together with the mark that it is driven. -/
def Paired {R : Type} : Task R → Prop
  | .done _ => True
  | .acquire _ next => Paired next
  | .release _ next => Paired next
  | .ask _ _ next => ∀ a, Paired (next a)
  | .write .values e next => (∃ rest, next = .write .driven e.1 rest) ∧ Paired next
  | .write _ _ next => Paired next

omit [OidRule] in
theorem Paired.does {R : Type} {p p' : Task R} {a : Action shared} (hp : Paired p) (h : Prog.Does p a p') :
    Paired p' := by
  cases h with
  | acquire l next => exact hp
  | release l next => exact hp
  | ask l q next a => exact hp a
  | write l w next =>
    cases l with
    | agentState => exact hp
    | driven => exact hp
    | values => exact hp.2

omit [OidRule] in
theorem paired_drive {R : Type} (l : List (Oid × Int64)) {f : Unit → Task R} (hf : Paired (f ())) :
    Paired ((l.forM fun e => do
      Task.insertValue e.1 e.2
      Task.insertDriven e.1).bind f) := by
  induction l with
  | nil => exact hf
  | cons e l ih => exact ⟨⟨_, rfl⟩, ih⟩

theorem paired_put (body : SetOids) : Paired ((Job.putOids body : Job F).task lib) := by
  cases hparse : parseBody body with
  | none =>
    rw [task_malformed hparse]
    trivial
  | some parsed =>
    have hdrive : Paired (((parsed.forM fun e => do
        Task.insertValue e.1 e.2
        Task.insertDriven e.1).bind fun _ =>
          .release .values (.release .driven (.done StatusCode.noContent))).bind fun code =>
            (.done (.status code) : Task Outcome)) := by
      rw [Prog.bind_assoc]
      exact paired_drive parsed trivial
    show Paired ((Task.putOids body).bind _)
    unfold Task.putOids
    rw [hparse]
    exact hdrive

/-- What a PUT has written so far it has marked driven, but for the value it has written last. -/
def Marked (labels : List (ι × Action shared)) (s : State shared ι Outcome) (j : ι) : Prop :=
  Paired (s.task j) ∧ ∀ e : Oid × Int64, (j, .write .values e) ∈ labels →
    e.1 ∈ s.data .driven ∨ (s.holder .values = some j ∧ ∃ rest, s.task j = .write .driven e.1 rest)

omit [OidRule] in
/-- The driven set only grows. -/
theorem driven_mono {s t : State shared ι Outcome} {i : ι} {a : Action shared} (h : Step s (i, a) t) :
    s.data .driven ⊆ t.data .driven := by
  cases h with
  | acquire htask _ => exact subset_rfl
  | release htask _ => exact subset_rfl
  | ask htask _ => exact subset_rfl
  | @write _ l w next htask _ =>
    cases l with
    | agentState => exact w.elim
    | driven => exact Finset.subset_insert w _
    | values => exact subset_rfl

omit [F64 F] in
omit [OidRule] in
theorem Marked.step {labels : List (ι × Action shared)} {s t : State shared ι Outcome} {j : ι} {e : ι × Action shared}
    (h : Marked labels s j) (hstep : Step s e t) : Marked (labels ++ [e]) t j := by
  obtain ⟨hpaired, hwrites⟩ := h
  obtain ⟨i, a⟩ := e
  constructor
  · by_cases hji : j = i
    · subst hji
      exact hpaired.does hstep.does
    · rw [hstep.task_other hji]
      exact hpaired
  · intro e he
    rcases List.mem_append.1 he with he | he
    · rcases hwrites e he with hdriven | ⟨hholder, rest, htask⟩
      · exact Or.inl (driven_mono hstep hdriven)
      · by_cases hji : j = i
        · -- its next action marks the value
          subst hji
          rw [hstep.data_of_write htask]
          exact Or.inl (Finset.mem_insert_self e.1 _)
        · right
          rw [hstep.task_other hji, ← State.mem_held, hstep.held_other hji, State.mem_held]
          exact ⟨hholder, rest, htask⟩
    · cases List.mem_singleton.1 he
      cases hstep with
      | write htask hholder =>
        rw [htask] at hpaired
        obtain ⟨⟨rest, hrest⟩, -⟩ := hpaired
        simp only [Function.update_self]
        exact Or.inr ⟨hholder, rest, hrest⟩

theorem marked_run {labels : List (ι × Action shared)} {s : State shared ι Outcome}
    (h : Run Step (agentStart lib data jobs) labels s) {j : ι} {body : SetOids} (hj : jobs j = .putOids body) :
    Marked labels s j := by
  induction labels using List.reverseRecOn generalizing s with
  | nil =>
    obtain rfl := run_nil_iff.1 h
    refine ⟨?_, fun e he => nomatch he⟩
    show Paired ((jobs j).task lib)
    rw [hj]
    exact paired_put body
  | append_singleton labels e ih =>
    obtain ⟨u, hu, hstep⟩ := run_concat_iff.1 h
    exact (ih hu).step hstep

/-- A value that a PUT has written is marked driven whenever anyone else holds the driven set or the value map. -/
theorem mem_driven_of_written {labels : List (ι × Action shared)} {s : State shared ι Outcome}
    (h : Run Step (agentStart lib data jobs) labels s) {i j : ι} {l : Lock} (hl : l ≠ .agentState)
    (hholder : s.holder l = some i) {body : SetOids} (hj : jobs j = .putOids body) (hij : i ≠ j) {e : Oid × Int64}
    (he : (j, .write .values e) ∈ labels) : e.1 ∈ s.data .driven := by
  obtain ⟨-, hwrites⟩ := marked_run h hj
  rcases hwrites e he with hdriven | ⟨hvalues, rest, htask⟩
  · exact hdriven
  · -- between the two writes the PUT holds both locks
    obtain ⟨growing, hfollows⟩ := ((Disciplined.start fun k => (jobs k).follows lib).run h) j
    rw [htask] at hfollows
    have hdriven := State.mem_held.1 hfollows.1
    cases l with
    | agentState => exact (hl rfl).elim
    | driven =>
      rw [hdriven] at hholder
      exact (hij (Option.some.inj hholder).symm).elim
    | values =>
      rw [hvalues] at hholder
      exact (hij (Option.some.inj hholder).symm).elim

theorem malformed_put {labels : List (ι × Action shared)} {s : State shared ι Outcome}
    (h : Run Step (agentStart lib data jobs) labels s) {i : ι} {body : SetOids} (hi : jobs i = .putOids body)
    (hbad : ∃ e ∈ body, parseOid e.1 = none) :
    s.task i = .done (.status .unprocessableEntity) ∧ ∀ a, (i, a) ∉ labels := by
  have hdoes := does_of_run h i
  have htask : (agentStart lib data jobs).task i = .done (.status .unprocessableEntity) := by
    show (jobs i).task lib = _
    rw [hi, task_malformed (parseBody_eq_none_iff.2 hbad)]
  rw [htask] at hdoes
  obtain ⟨hown, hend⟩ := Prog.eq_of_run_done hdoes
  refine ⟨hend, fun a ha => ?_⟩
  rw [← mem_own, hown] at ha
  cases ha

theorem accepted_put {labels : List (ι × Action shared)} {s : State shared ι Outcome}
    (h : Run Step (agentStart lib data jobs) labels s) {i : ι} {body : SetOids} (hi : jobs i = .putOids body)
    (hdone : s.task i = .done (.status .noContent)) {e : String × Int64} (he : e ∈ body) :
    ∃ oid, parseOid e.1 = some oid ∧ (i, .write .values (oid, e.2)) ∈ labels ∧ (i, .write .driven oid) ∈ labels := by
  have hdoes := does_of_run h i
  have htask : (agentStart lib data jobs).task i = (Job.putOids body).task lib := congrArg (Job.task lib) hi
  rw [hdone, htask] at hdoes
  cases hparse : parseBody body with
  | none =>
    rw [task_malformed hparse] at hdoes
    cases (Prog.eq_of_run_done hdoes).2
  | some parsed =>
    obtain ⟨oid, hoid, hmem⟩ := mem_parsed hparse he
    obtain ⟨hvalue, hdriven⟩ := always_put (F := F) hparse hmem
    exact ⟨oid, hoid, mem_own.1 (hvalue.mem_of_run hdoes), mem_own.1 (hdriven.mem_of_run hdoes)⟩

/-- However the tasks interleave: a batch with a malformed OID is refused and writes nothing; an accepted batch has
written all it names to the value map and to the driven set; what a datagram is answered from is one value map, that after
some whole operations; and what a tick asks, it asks with every value that a PUT has written marked driven. -/
theorem puts_all_or_nothing (lib : Libraries) (data : shared.AllData) (jobs : ι → Job F)
    (labels : List (ι × Action shared)) (s : State shared ι Outcome)
    (h : Run Step (agentStart lib data jobs) labels s) :
    (∀ i body, jobs i = .putOids body → (∃ e ∈ body, parseOid e.1 = none) →
      s.task i = .done (.status .unprocessableEntity) ∧ ∀ a, (i, a) ∉ labels) ∧
    (∀ i body, jobs i = .putOids body → s.task i = .done (.status .noContent) →
      ∀ e ∈ body, ∃ oid, parseOid e.1 = some oid ∧ (i, .write .values (oid, e.2)) ∈ labels ∧
        (i, .write .driven oid) ∈ labels) ∧
    (∀ i, (jobs i).Responds → ∃ history a, Serial jobs (agentOf data) history a ∧
      ∀ pre u, Asks (agentStart lib data jobs) labels i .values pre u → u.data .values = a.values) ∧
    (∀ i order l pre u, jobs i = .tickTask order → l ≠ .agentState → Asks (agentStart lib data jobs) labels i l pre u →
      ∀ j body e, jobs j = .putOids body → (j, .write .values e) ∈ pre → e.1 ∈ u.data .driven) := by
  refine ⟨fun i body hi hbad => malformed_put h hi hbad, fun i body hi hdone e he => accepted_put h hi hdone he,
    fun i hi => ?_, ?_⟩
  · obtain ⟨history, a, hserial, hasks, -⟩ := exists_serial_snapshot h hi
    exact ⟨history, a, hserial, hasks⟩
  · intro i order l pre u hi hl hasks j body e hj he
    have hholder := hasks.holder h
    obtain ⟨q, a, post, -, hu⟩ := hasks
    refine mem_driven_of_written hu hl hholder hj ?_ he
    rintro rfl
    rw [hi] at hj
    cases hj

end

/-- Every datagram is a GetRequest for 1.3 and 1.4. -/
def pairLibraries : Libraries :=
  { deafLibraries with
    v2c := { decode := fun _ => some { version := 1, community := [], data := .getRequest {
               requestId := 1, errorStatus := 0, errorIndex := 0, variableBindings :=
                 [⟨⟨[1, 3], by decide⟩, .unspecified⟩, ⟨⟨[1, 4], by decide⟩, .unspecified⟩] } }
             encode := fun _ => none } }

/-- A PUT of 1.3, one whose second OID is malformed, a tick and a datagram. -/
def batchJobs (order : Task.Iteration) : Fin 4 → Job ℚ
  | 0 => .putOids [("1.3", 5)]
  | 1 => .putOids [("1.3", 6), ("1.x", 7)]
  | 2 => .tickTask order
  | 3 => .datagram []

/-- The PUT, then the datagram between the tick's two locks. -/
def batchRun : List (Fin 4 × Action shared) :=
  [(0, .acquire .driven), (0, .acquire .values), (0, .write .values ([1, 3], 5)), (0, .write .driven [1, 3]),
    (0, .release .values), (0, .release .driven), (2, .acquire .driven), (3, .acquire .values),
    (3, .ask .values (.get [1, 3]) (some 5 : Option Int64)), (3, .ask .values (.get [1, 4]) (none : Option Int64)),
    (3, .release .values), (2, .acquire .values), (2, .ask .driven oidInputCurrent false)]

theorem puts_all_or_nothing_tick : ∃ order s,
    Run Step (agentStart pairLibraries emptyAgent (batchJobs order)) batchRun s ∧
    s.task 1 = .done (.status .unprocessableEntity) ∧ (∀ a, (1, a) ∉ batchRun) ∧
    s.task 0 = .done (.status .noContent) ∧ (0, .write .values ([1, 3], 5)) ∈ batchRun ∧
    (∃ history a, Serial (batchJobs order) (agentOf emptyAgent) history a ∧ a.values.lookup [1, 3] = some 5 ∧
      a.values.lookup [1, 4] = none) ∧
    ∃ u, Asks (agentStart pairLibraries emptyAgent (batchJobs order)) batchRun 2 .driven (batchRun.take 12) u ∧
      [1, 3] ∈ u.data .driven := by
  obtain ⟨order⟩ := Task.Iteration.nonempty
  let start := agentStart pairLibraries emptyAgent (batchJobs order)
  have hput : (batchJobs order 0).task pairLibraries = .acquire .driven (.acquire .values
      (.write .values ([1, 3], 5) (.write .driven [1, 3] (.release .values (.release .driven
        (.done (.status .noContent))))))) := rfl
  obtain ⟨tick, htick⟩ : ∃ tick, (batchJobs order 2).task pairLibraries = .acquire .driven (.acquire .values
      (.ask .driven oidInputCurrent tick)) := ⟨_, rfl⟩
  obtain ⟨reply, hreply⟩ : ∃ reply : Option Int64 → Option Int64 → Task Outcome,
      (batchJobs order 3).task pairLibraries = .acquire .values (.ask .values (.get [1, 3]) fun x =>
        .ask .values (.get [1, 4]) fun y => .release .values (reply x y)) := ⟨_, rfl⟩
  obtain ⟨s, hs, hdone⟩ : ∃ s, Run Step start batchRun s ∧ s.task 0 = .done (.status .noContent) :=
    ⟨_, Run.cons (.acquire hput rfl) (Run.cons (.acquire rfl rfl) (Run.cons (.write rfl rfl) (Run.cons (.write rfl rfl)
      (Run.cons (.release rfl rfl) (Run.cons (.release rfl rfl) (Run.cons (.acquire htick rfl)
        (Run.cons (.acquire hreply rfl) (Run.cons (.ask rfl rfl) (Run.cons (.ask rfl rfl) (Run.cons (.release rfl rfl)
          (Run.cons (.acquire rfl rfl) (Run.cons (.ask rfl rfl) (Run.nil _))))))))))))), rfl⟩
  obtain ⟨hmalformed, haccepted, hsnapshot, hticks⟩ := puts_all_or_nothing pairLibraries emptyAgent _ _ _ hs
  obtain ⟨hrefused, hnothing⟩ := hmalformed 1 _ rfl ⟨("1.x", 7), by simp, by decide +kernel⟩
  obtain ⟨oid, hoid, hvalue, -⟩ := haccepted 0 _ rfl hdone ("1.3", 5) (by simp)
  have h13 : parseOid "1.3" = some [1, 3] := by decide +kernel
  obtain rfl := Option.some.inj (h13.symm.trans hoid)
  obtain ⟨history, a, hserial, hreads⟩ := hsnapshot 3 trivial
  -- both lookups of the datagram are of the one map
  have hlooked : ∀ oid x, (3, .ask .values (.get oid) x) ∈ batchRun → a.values.lookup oid = x := by
    intro oid x hx
    obtain ⟨pre, u, hu, rfl⟩ := exists_asks hs hx
    exact congrArg (Finmap.lookup oid) (hreads pre u hu).symm
  obtain ⟨u, hu⟩ : ∃ u, Asks start batchRun 2 .driven (batchRun.take 12) u := by
    obtain ⟨u, hu, -⟩ := run_append_iff.1 (show Run Step start (batchRun.take 12 ++ batchRun.drop 12) s from hs)
    exact ⟨u, _, _, [], rfl, hu⟩
  have hdriven := hticks 2 order .driven _ u rfl (by decide) hu 0 _ ([1, 3], 5) rfl (by simp [batchRun])
  exact ⟨order, s, hs, hrefused, hnothing, hdone, hvalue,
    ⟨history, a, hserial, hlooked _ _ (by simp [batchRun]), hlooked _ _ (by simp [batchRun])⟩, u, hu, hdriven⟩

end EmsFixtures.Snmp
