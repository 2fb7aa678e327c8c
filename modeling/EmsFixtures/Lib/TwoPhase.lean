import EmsFixtures.Lib.Locks

/-!
# Sections as atomic steps

A section of a task runs from holding no lock to holding none again.  Under the discipline every run of single actions
is a run of whole sections, in the order in which they first give a lock back (`exists_atomicRun`): each task has done so
far what its sections do, and possibly a part of one more; free locks hold what the sections leave behind.  A task that
only asks, within one section, looks at one state between sections (`exists_snapshot`).
-/

namespace EmsFixtures.Locks

open Runs

variable {L : Type} {sh : Shared L} {R S ι : Type} [LinearOrder L]

/-! ### The effect of a section -/

/-- What is left of a task that holds `held`, and the data, once it has run alone to the end of its section. -/
def ends : Finset L → Prog sh R → sh.AllData → Prog sh R × sh.AllData
  | _, .done r, d => (.done r, d)
  | held, .acquire l next, d => ends (insert l held) next d
  | held, .release l next, d => if held.erase l = ∅ then (next, d) else ends (held.erase l) next d
  | held, .ask l q next, d => ends held (next (sh.ask l q (d l))) d
  | held, .write l w next, d => ends held next (Function.update d l (sh.apply l w (d l)))

theorem ends_release {held : Finset L} {l : L} (h : held.erase l ≠ ∅) (next : Prog sh R) (d : sh.AllData) :
    ends held (.release l next) d = ends (held.erase l) next d := by
  rw [ends, if_neg h]

theorem ends_release_last {held : Finset L} {l : L} (h : held.erase l = ∅) (next : Prog sh R) (d : sh.AllData) :
    ends held (.release l next) d = (next, d) := by
  rw [ends, if_pos h]

/-- The task run by itself, its locks taken for granted. -/
def alone : Prog sh R → sh.AllData → R × sh.AllData
  | .done r, d => (r, d)
  | .acquire _ next, d => alone next d
  | .release _ next, d => alone next d
  | .ask l q next, d => alone (next (sh.ask l q (d l))) d
  | .write l w next, d => alone next (Function.update d l (sh.apply l w (d l)))

theorem alone_bind (p : Prog sh R) (f : R → Prog sh S) (d : sh.AllData) :
    alone (p.bind f) d = alone (f (alone p d).1) (alone p d).2 := by
  induction p generalizing d with
  | done r => rfl
  | acquire l next ih => exact ih d
  | release l next ih => exact ih d
  | ask l q next ih => exact ih _ d
  | write l w next ih => exact ih _

/-- A stretch within a section runs as if alone. -/
theorem ends_bind {held : Finset L} {p : Prog sh R} (hp : Within held p) (f : R → Prog sh S) (d : sh.AllData) :
    ends held (p.bind f) d = ends held (f (alone p d).1) (alone p d).2 := by
  induction p generalizing d with
  | done r => rfl
  | acquire l next => exact hp.elim
  | release l next => exact hp.elim
  | ask l q next ih => exact ih _ (hp.2 _) d
  | write l w next ih => exact ih hp.2 _

/-- What a task ends in does not matter to its sections. -/
theorem ends_map (held : Finset L) (p : Prog sh R) (f : R → S) (d : sh.AllData) :
    ends held (p.bind fun r => .done (f r)) d =
      ((ends held p d).1.bind fun r => .done (f r), (ends held p d).2) := by
  induction p generalizing held d with
  | done r => rfl
  | acquire l next ih => exact ih _ d
  | release l next ih =>
    by_cases hempty : held.erase l = ∅
    · rw [ends_release_last hempty]
      exact ends_release_last hempty _ d
    · rw [ends_release hempty]
      exact (ends_release hempty _ d).trans (ih _ d)
  | ask l q next ih => exact ih _ _ d
  | write l w next ih => exact ih _ _

/-! ### What a section depends on -/

/-- `d` where it is held, `base` elsewhere. -/
def overlay (held : Finset L) (d base : sh.AllData) : sh.AllData := fun l => if l ∈ held then d l else base l

theorem overlay_of_mem {held : Finset L} {l : L} (h : l ∈ held) (d base : sh.AllData) : overlay held d base l = d l :=
  if_pos h

theorem overlay_of_not_mem {held : Finset L} {l : L} (h : l ∉ held) (d base : sh.AllData) :
    overlay held d base l = base l :=
  if_neg h

@[simp] theorem overlay_empty (d base : sh.AllData) : overlay ∅ d base = base := by
  funext l
  exact overlay_of_not_mem (Finset.notMem_empty l) d base

theorem overlay_congr {held : Finset L} {d d' base base' : sh.AllData} (h : ∀ l ∈ held, d l = d' l)
    (hbase : ∀ l ∉ held, base l = base' l) : overlay held d base = overlay held d' base' := by
  funext l
  by_cases hl : l ∈ held
  · rw [overlay_of_mem hl, overlay_of_mem hl, h l hl]
  · rw [overlay_of_not_mem hl, overlay_of_not_mem hl, hbase l hl]

theorem overlay_of_agree {held : Finset L} {d base : sh.AllData} (h : ∀ l ∈ held, d l = base l) :
    overlay held d base = base := by
  funext l
  by_cases hl : l ∈ held
  · rw [overlay_of_mem hl, h l hl]
  · rw [overlay_of_not_mem hl]

/-- The end of a section reads and writes only what it holds. -/
theorem ends_frame {held : Finset L} {p : Prog sh R} (hp : Follows false held p) {d d' : sh.AllData}
    (h : ∀ l ∈ held, d l = d' l) : ends held p d' = ((ends held p d).1, overlay held (ends held p d).2 d') := by
  induction p generalizing held d d' with
  | done r =>
    obtain rfl : held = ∅ := hp
    rw [overlay_empty]
    rfl
  | acquire l next ih => cases hp.1
  | release l next ih =>
    obtain ⟨hl, hp⟩ := hp
    by_cases hempty : held.erase l = ∅
    · rw [ends_release_last hempty, ends_release_last hempty, overlay_of_agree h]
    · rw [ends_release hempty, ends_release hempty]
      rw [decide_eq_false hempty] at hp
      have h' : ∀ m ∈ held.erase l, d m = d' m := fun m hm => h m (Finset.mem_of_mem_erase hm)
      have hself : ends (held.erase l) next d = _ := ih hp fun _ _ => rfl
      have hout : (ends (held.erase l) next d).2 l = d l := by
        rw [hself]
        exact overlay_of_not_mem (Finset.notMem_erase l held) _ _
      rw [ih hp h']
      refine congrArg (Prod.mk _) ?_
      funext m
      by_cases hm : m = l
      · subst hm
        rw [overlay_of_not_mem (Finset.notMem_erase m held), overlay_of_mem hl, hout, h m hl]
      · by_cases hmem : m ∈ held
        · rw [overlay_of_mem (Finset.mem_erase.2 ⟨hm, hmem⟩), overlay_of_mem hmem]
        · rw [overlay_of_not_mem hmem, overlay_of_not_mem fun h => hmem (Finset.mem_of_mem_erase h)]
  | ask l q next ih =>
    obtain ⟨hl, hp⟩ := hp
    rw [ends, ends, ← h l hl]
    exact ih _ (hp _) h
  | write l w next ih =>
    obtain ⟨hl, hp⟩ := hp
    have h' : ∀ m ∈ held,
        Function.update d l (sh.apply l w (d l)) m = Function.update d' l (sh.apply l w (d' l)) m := by
      intro m hm
      by_cases hml : m = l
      · subst hml
        simp [h m hm]
      · simp [hml, h m hm]
    rw [ends, ends, ih hp h']
    refine congrArg (Prod.mk _) (overlay_congr (fun _ _ => rfl) fun m hm => ?_)
    have hml : m ≠ l := fun h => hm (h ▸ hl)
    exact Function.update_of_ne hml ..

theorem ends_outside {held : Finset L} {p : Prog sh R} (hp : Follows false held p) (d : sh.AllData) {l : L}
    (hl : l ∉ held) : (ends held p d).2 l = d l := by
  have hself : ends held p d = _ := ends_frame hp fun _ _ => rfl
  rw [hself]
  exact overlay_of_not_mem hl _ _

/-! ### A task between two sections of its own -/

/-- The task has not given a lock back in its section: the section goes on as it would from its start over data that
agrees with `base` on what is held. -/
def Growing (held : Finset L) (p : Prog sh R) (d : sh.AllData) (start : Prog sh R) (base : sh.AllData) : Prop :=
  ∀ d', (∀ l ∈ held, d' l = base l) → ends ∅ start d' = ends held p (overlay held d d')

/-- The task has given a lock back in its section, whose end is accounted for already. -/
def Shrinking (held : Finset L) (p : Prog sh R) (d : sh.AllData) (start : Prog sh R) (base : sh.AllData) : Prop :=
  ∀ d', ends held p (overlay held d d') = (start, overlay held base d')

/-- A task that holds `held` of the data `d`, against its next section `start` and the data `base` between sections. -/
def InSection (held : Finset L) (p : Prog sh R) (d : sh.AllData) (start : Prog sh R) (base : sh.AllData) : Prop :=
  (Follows true held p ∧ Growing held p d start base) ∨ (Follows false held p ∧ Shrinking held p d start base)

section InSection

variable {held : Finset L} {p start : Prog sh R} {d base : sh.AllData} {l : L}

theorem InSection.congr {d' base' : sh.AllData} (h : InSection held p d start base) (hd : ∀ l ∈ held, d' l = d l)
    (hbase : ∀ l ∈ held, base' l = base l) : InSection held p d' start base' := by
  have hover : ∀ b, overlay held d' b = overlay held d b := fun b => overlay_congr hd fun _ _ => rfl
  rcases h with ⟨hp, hall⟩ | ⟨hp, hall⟩
  · refine Or.inl ⟨hp, fun b hb => ?_⟩
    rw [hover]
    exact hall b fun l hl => (hb l hl).trans (hbase l hl)
  · refine Or.inr ⟨hp, fun b => ?_⟩
    rw [hover, hall b]
    exact congrArg (Prod.mk _) (overlay_congr (fun l hl => (hbase l hl).symm) fun _ _ => rfl)

/-- Between sections. -/
theorem InSection.between (hp : Follows true ∅ p) : InSection ∅ p d p base :=
  Or.inl ⟨hp, fun b _ => by rw [overlay_empty]⟩

theorem InSection.acquire {next : Prog sh R} (h : InSection held (.acquire l next) d start base) (hl : d l = base l) :
    InSection (insert l held) next d start base := by
  rcases h with ⟨hp, hall⟩ | ⟨hp, -⟩
  · refine Or.inl ⟨hp.2.2, fun b hb => ?_⟩
    have hover : overlay (insert l held) d b = overlay held d b := by
      funext m
      by_cases hm : m ∈ held
      · rw [overlay_of_mem hm, overlay_of_mem (Finset.mem_insert_of_mem hm)]
      · rw [overlay_of_not_mem hm]
        by_cases hml : m = l
        · subst hml
          rw [overlay_of_mem (Finset.mem_insert_self m held), hl, hb m (Finset.mem_insert_self m held)]
        · exact overlay_of_not_mem (fun h => hm ((Finset.mem_insert.1 h).resolve_left hml)) _ _
    rw [hover]
    exact hall b fun m hm => hb m (Finset.mem_insert_of_mem hm)
  · cases hp.1

/-- An action that takes or gives back no lock. -/
theorem InSection.advance {next : Prog sh R} {d' : sh.AllData} (h : InSection held p d start base)
    (hp : ∀ growing, Follows growing held p → Follows growing held next)
    (hstep : ∀ b, ends held p (overlay held d b) = ends held next (overlay held d' b)) :
    InSection held next d' start base := by
  rcases h with ⟨hfollows, hall⟩ | ⟨hfollows, hall⟩
  · exact Or.inl ⟨hp _ hfollows, fun b hb => (hall b hb).trans (hstep b)⟩
  · exact Or.inr ⟨hp _ hfollows, fun b => (hstep b).symm.trans (hall b)⟩

theorem InSection.ask {q : sh.Query l} {next : sh.Answer l q → Prog sh R}
    (h : InSection held (.ask l q next) d start base) (hl : l ∈ held) :
    InSection held (next (sh.ask l q (d l))) d start base := by
  apply h.advance (fun growing hp => hp.2 _)
  intro b
  rw [ends, overlay_of_mem hl]

theorem InSection.write {w : sh.Write l} {next : Prog sh R} (h : InSection held (.write l w next) d start base)
    (hl : l ∈ held) : InSection held next (Function.update d l (sh.apply l w (d l))) start base := by
  apply h.advance (fun growing hp => hp.2)
  intro b
  have hover : Function.update (overlay held d b) l (sh.apply l w (overlay held d b l)) =
      overlay held (Function.update d l (sh.apply l w (d l))) b := by
    funext m
    by_cases hm : m = l
    · subst hm
      rw [overlay_of_mem hl, overlay_of_mem hl, Function.update_self, Function.update_self]
    · rw [Function.update_of_ne hm]
      unfold overlay
      rw [Function.update_of_ne hm]
  rw [ends, hover]

/-- The first lock a section gives back commits it. -/
theorem Growing.release {next : Prog sh R} (hp : Follows true held (.release l next))
    (h : Growing held (.release l next) d start base) :
    InSection (held.erase l) next d (ends ∅ start base).1 (ends ∅ start base).2 ∧
      (ends ∅ start base).2 l = d l ∧ ∀ m ∉ held, (ends ∅ start base).2 m = base m := by
  obtain ⟨hl, hp⟩ := hp
  have hout := h base fun _ _ => rfl
  by_cases hempty : held.erase l = ∅
  · rw [ends_release_last hempty] at hout
    rw [decide_eq_true hempty, hempty] at hp
    rw [hout, hempty]
    exact ⟨InSection.between hp, overlay_of_mem hl _ _, fun m hm => overlay_of_not_mem hm _ _⟩
  · rw [ends_release hempty] at hout
    rw [decide_eq_false hempty] at hp
    rw [hout]
    refine ⟨Or.inr ⟨hp, fun b => ?_⟩, ?_, fun m hm => ?_⟩
    · have hagree : ∀ m ∈ held.erase l, overlay held d base m = overlay (held.erase l) d b m := by
        intro m hm
        rw [overlay_of_mem hm, overlay_of_mem (Finset.mem_of_mem_erase hm)]
      rw [ends_frame hp hagree]
      exact congrArg (Prod.mk _) (overlay_congr (fun _ _ => rfl) fun m hm => overlay_of_not_mem hm _ _)
    · exact (ends_outside hp _ (Finset.notMem_erase l held)).trans (overlay_of_mem hl _ _)
    · have hm' : m ∉ held.erase l := fun h => hm (Finset.mem_of_mem_erase h)
      exact (ends_outside hp _ hm').trans (overlay_of_not_mem hm _ _)

/-- The locks a section gives back later hold what it committed. -/
theorem Shrinking.release {next : Prog sh R} (hp : Follows false held (.release l next))
    (h : Shrinking held (.release l next) d start base) :
    InSection (held.erase l) next d start base ∧ base l = d l := by
  obtain ⟨hl, hp⟩ := hp
  have hout := h base
  rw [overlay_of_agree fun _ _ => rfl] at hout
  by_cases hempty : held.erase l = ∅
  · rw [ends_release_last hempty] at hout
    rw [decide_eq_true hempty, hempty] at hp
    obtain ⟨rfl, hdata⟩ := Prod.mk.inj hout
    have hbase := congrFun hdata l
    rw [overlay_of_mem hl] at hbase
    rw [hempty]
    exact ⟨InSection.between hp, hbase.symm⟩
  · rw [ends_release hempty] at hout
    rw [decide_eq_false hempty] at hp
    refine ⟨Or.inr ⟨hp, fun b => ?_⟩, ?_⟩
    · have hagree : ∀ m ∈ held.erase l, overlay held d base m = overlay (held.erase l) d b m := by
        intro m hm
        rw [overlay_of_mem hm, overlay_of_mem (Finset.mem_of_mem_erase hm)]
      rw [ends_frame hp hagree, hout]
      exact congrArg (Prod.mk _) (overlay_congr (fun _ _ => rfl) fun m hm => overlay_of_not_mem hm _ _)
    · have houtside := ends_outside hp (overlay held d base) (Finset.notMem_erase l held)
      rw [hout, overlay_of_mem hl] at houtside
      exact houtside

end InSection

/-! ### Runs of sections -/

/-- The data between sections, and where each task is. -/
structure Atomic (sh : Shared L) (ι R : Type) where
  data : sh.AllData
  task : ι → Prog sh R

variable [DecidableEq ι]

/-- One whole section of task `i`. -/
def Atomic.next (c : Atomic sh ι R) (i : ι) : Atomic sh ι R :=
  { data := (ends ∅ (c.task i) c.data).2, task := Function.update c.task i (ends ∅ (c.task i) c.data).1 }

theorem Atomic.next_task_self (c : Atomic sh ι R) (i : ι) : (c.next i).task i = (ends ∅ (c.task i) c.data).1 :=
  Function.update_self ..

theorem Atomic.next_task_other (c : Atomic sh ι R) {i j : ι} (hj : j ≠ i) : (c.next i).task j = c.task j :=
  Function.update_of_ne hj ..

def AtomicStep (c : Atomic sh ι R) (i : ι) (c' : Atomic sh ι R) : Prop := c.next i = c'

variable [Fintype L]

/-- A state against one between sections: free locks hold the same, and every task is somewhere in its next section or
at the end of its last. -/
structure Matches (s : State sh ι R) (c : Atomic sh ι R) : Prop where
  free : ∀ l, s.holder l = none → s.data l = c.data l
  task : ∀ i, InSection (s.held i) (s.task i) s.data (c.task i) c.data

/-- A task that has not committed a section by its action. -/
theorem Matches.stay {s t : State sh ι R} {c : Atomic sh ι R} {i : ι} {a : Action sh} (h : Matches s c)
    (hstep : Step s (i, a) t) (hi : InSection (t.held i) (t.task i) t.data (c.task i) c.data)
    (hfree : ∀ l, t.holder l = none → t.data l = c.data l) : Matches t c := by
  refine ⟨hfree, fun j => ?_⟩
  by_cases hj : j = i
  · subst hj
    exact hi
  · rw [hstep.held_other hj, hstep.task_other hj]
    exact (h.task j).congr (fun l hl => hstep.data_other hj hl) fun _ _ => rfl

/-- A task that has. -/
theorem Matches.commit {s t : State sh ι R} {c : Atomic sh ι R} {i : ι} {a : Action sh} (h : Matches s c)
    (hstep : Step s (i, a) t)
    (hi : InSection (t.held i) (t.task i) t.data (ends ∅ (c.task i) c.data).1 (c.next i).data)
    (hother : ∀ m ∉ s.held i, (c.next i).data m = c.data m)
    (hfree : ∀ l, t.holder l = none → t.data l = (c.next i).data l) : Matches t (c.next i) := by
  refine ⟨hfree, fun j => ?_⟩
  by_cases hj : j = i
  · subst hj
    rw [Atomic.next_task_self]
    exact hi
  · rw [hstep.held_other hj, hstep.task_other hj, Atomic.next_task_other c hj]
    exact (h.task j).congr (fun l hl => hstep.data_other hj hl) fun l hl =>
      hother l (State.held_disjoint (Ne.symm hj) hl)

/-- One action is a part of a section, or commits it by giving a lock back. -/
theorem Matches.step {s t : State sh ι R} {c : Atomic sh ι R} {i : ι} {a : Action sh} (h : Matches s c)
    (hstep : Step s (i, a) t) :
    Matches t c ∨
      Matches t (c.next i) ∧ (∃ l, a = .release l) ∧ ∀ m ∉ s.held i, (c.next i).data m = c.data m := by
  have hi := h.task i
  have hheld := hstep.held_self
  have hact := hstep
  cases hstep with
  | @acquire _ l next htask hfree =>
    rw [htask] at hi
    refine Or.inl (h.stay hact ?_ fun m hm => ?_)
    · rw [hheld]
      simp only [Function.update_self]
      exact hi.acquire (h.free l hfree)
    · have hml : m ≠ l := by
        rintro rfl
        simp at hm
      simp only [Function.update_of_ne hml] at hm
      exact h.free m hm
  | @ask _ l q next htask hl =>
    rw [htask] at hi
    refine Or.inl (h.stay hact ?_ h.free)
    rw [hheld]
    simp only [Function.update_self]
    exact hi.ask (State.mem_held.2 hl)
  | @write _ l w next htask hl =>
    rw [htask] at hi
    refine Or.inl (h.stay hact ?_ fun m hm => ?_)
    · rw [hheld]
      simp only [Function.update_self]
      exact hi.write (State.mem_held.2 hl)
    · have hml : m ≠ l := by
        rintro rfl
        rw [hl] at hm
        cases hm
      exact (Function.update_of_ne hml ..).trans (h.free m hm)
  | @release _ l next htask hl =>
    rw [htask] at hi
    -- a lock that is free after the action was free before it, or is the one given back
    have hfree : ∀ {b : sh.AllData}, b l = s.data l → (∀ m, s.holder m = none → b m = c.data m) →
        ∀ m, Function.update s.holder l none m = none → s.data m = b m := by
      intro b hbl hb m hm
      by_cases hml : m = l
      · rw [hml, hbl]
      · rw [Function.update_of_ne hml] at hm
        rw [hb m hm, h.free m hm]
    rcases hi with ⟨hp, hgrowing⟩ | ⟨hp, hshrinking⟩
    · obtain ⟨hsection, hout, hother⟩ := hgrowing.release hp
      refine Or.inr ⟨h.commit hact ?_ hother (hfree hout fun m hm => hother m ?_), ⟨l, rfl⟩, hother⟩
      · rw [hheld]
        simp only [Function.update_self]
        exact hsection
      · rw [State.mem_held, hm]
        exact Option.some_ne_none i ∘ Eq.symm
    · obtain ⟨hsection, hbase⟩ := hshrinking.release hp
      refine Or.inl (h.stay hact ?_ (hfree hbase fun _ _ => rfl))
      rw [hheld]
      simp only [Function.update_self]
      exact hsection

theorem Matches.start {data : sh.AllData} {task : ι → Prog sh R} (htask : ∀ i, Follows true ∅ (task i)) :
    Matches (State.start data task) { data, task } := by
  refine ⟨fun _ _ => rfl, fun i => ?_⟩
  rw [State.held_start]
  exact InSection.between (htask i)

/-- Every run of single actions is a run of whole sections. -/
theorem exists_atomicRun {data : sh.AllData} {task : ι → Prog sh R} (htask : ∀ i, Follows true ∅ (task i))
    {labels : List (ι × Action sh)} {s : State sh ι R} (h : Run Step (State.start data task) labels s) :
    ∃ sections c, Run AtomicStep { data, task } sections c ∧ Matches s c := by
  induction labels using List.reverseRecOn generalizing s with
  | nil =>
    obtain rfl := run_nil_iff.1 h
    exact ⟨[], _, Run.nil _, Matches.start htask⟩
  | append_singleton labels e ih =>
    obtain ⟨u, hu, hstep⟩ := run_concat_iff.1 h
    obtain ⟨sections, c, hc, hmatches⟩ := ih hu
    rcases hmatches.step hstep with hmatches | ⟨hmatches, -⟩
    · exact ⟨sections, c, hc, hmatches⟩
    · exact ⟨sections ++ [e.1], c.next e.1, run_concat_iff.2 ⟨c, hc, rfl⟩, hmatches⟩

/-! ### Tasks that only ask -/

/-- In state `u`, which `pre` reaches, task `i` asks something of what is behind `l`. -/
def Asks (s₀ : State sh ι R) (labels : List (ι × Action sh)) (i : ι) (l : L) (pre : List (ι × Action sh))
    (u : State sh ι R) : Prop :=
  ∃ q a post, labels = pre ++ (i, .ask l q a) :: post ∧ Run Step s₀ pre u

section Asks

variable {s₀ s t : State sh ι R} {labels pre : List (ι × Action sh)} {i : ι} {l : L} {u : State sh ι R}

omit [Fintype L] in
theorem exists_asks {q : sh.Query l} {a : sh.Answer l q} (h : Run Step s₀ labels s)
    (ha : (i, Action.ask l q a) ∈ labels) : ∃ pre u, Asks s₀ labels i l pre u ∧ a = sh.ask l q (u.data l) := by
  obtain ⟨pre, post, rfl⟩ := List.append_of_mem ha
  obtain ⟨u, hu, hpost⟩ := run_append_iff.1 h
  obtain ⟨v, hstep, -⟩ := run_cons_iff.1 hpost
  refine ⟨pre, u, ⟨q, a, post, rfl, hu⟩, ?_⟩
  cases hstep
  rfl

omit [Fintype L] in
/-- Whoever asks holds the lock. -/
theorem Asks.holder (h : Asks s₀ labels i l pre u) (hrun : Run Step s₀ labels s) : u.holder l = some i := by
  obtain ⟨q, a, post, rfl, hu⟩ := h
  obtain ⟨u', hu', hpost⟩ := run_append_iff.1 hrun
  obtain ⟨v, hstep, -⟩ := run_cons_iff.1 hpost
  obtain rfl := hu.unique Step.det hu'
  cases hstep
  assumption

omit [Fintype L] in
/-- What is asked by the end of a run was asked before its last action, or is that action. -/
theorem Asks.snoc {e : ι × Action sh} (hrun : Run Step s₀ labels s) (h : Asks s₀ (labels ++ [e]) i l pre u) :
    Asks s₀ labels i l pre u ∨ u = s ∧ ∃ q a, e = (i, .ask l q a) := by
  obtain ⟨q, a, post, heq, hu⟩ := h
  rcases List.eq_nil_or_concat post with rfl | ⟨post, e', rfl⟩
  · obtain ⟨rfl, he⟩ := List.append_inj' heq rfl
    exact Or.inr ⟨hu.unique Step.det hrun, q, a, (List.cons_eq_cons.1 he).1⟩
  · rw [List.concat_eq_append, ← List.cons_append, ← List.append_assoc] at heq
    obtain ⟨rfl, -⟩ := List.append_inj' heq rfl
    exact Or.inl ⟨q, a, post, rfl, hu⟩

end Asks

/-- A task that writes nothing and, once it has given a lock back, takes none. -/
def Reader : Bool → Prog sh R → Prop
  | _, .done _ => True
  | growing, .acquire _ next => growing = true ∧ Reader true next
  | _, .release _ next => Reader false next
  | growing, .ask _ _ next => ∀ a, Reader growing (next a)
  | _, .write .. => False

/-- Whether a task that was growing is so after an action. -/
def Action.growsOn (growing : Bool) : Action sh → Bool
  | .release _ => false
  | _ => growing

omit [LinearOrder L] [DecidableEq ι] [Fintype L] in
theorem Reader.does {growing : Bool} {p p' : Prog sh R} {a : Action sh} (hp : Reader growing p)
    (h : Prog.Does p a p') : Reader (a.growsOn growing) p' := by
  cases h with
  | acquire l next =>
    obtain ⟨rfl, hp⟩ := hp
    exact hp
  | release l next => exact hp
  | ask l q next a => exact hp a
  | write l w next => exact hp.elim

omit [LinearOrder L] [DecidableEq ι] [Fintype L] in
theorem Reader.map {growing : Bool} {p : Prog sh R} (hp : Reader growing p) (f : R → S) :
    Reader growing (p.bind fun r => .done (f r)) := by
  induction p generalizing growing with
  | done r => trivial
  | acquire l next ih => exact ⟨hp.1, ih hp.2⟩
  | release l next ih => exact ih hp
  | ask l q next ih => exact fun a => ih a (hp a)
  | write l w next => exact hp.elim

/-- A stretch that only asks. -/
def Asking : Prog sh R → Prop
  | .done _ => True
  | .ask _ _ next => ∀ a, Asking (next a)
  | _ => False

omit [LinearOrder L] [DecidableEq ι] [Fintype L] in
/-- What asking preserves holds before a stretch that only asks if it holds after it. -/
theorem Asking.bind_induction {P : Prog sh S → Prop}
    (hask : ∀ l q next, (∀ a, P (next a)) → P (.ask l q next)) {p : Prog sh R} {f : R → Prog sh S} (hp : Asking p)
    (hf : ∀ r, P (f r)) : P (p.bind f) := by
  induction p with
  | done r => exact hf r
  | ask l q next ih => exact hask l q _ fun a => ih a (hp a)
  | acquire l next => exact hp.elim
  | release l next => exact hp.elim
  | write l w next => exact hp.elim

omit [LinearOrder L] [DecidableEq ι] [Fintype L] in
theorem Asking.bind {p : Prog sh R} {f : R → Prog sh S} (hp : Asking p) (hf : ∀ r, Asking (f r)) :
    Asking (p.bind f) :=
  hp.bind_induction (fun _ _ _ h => h) hf

omit [LinearOrder L] [DecidableEq ι] [Fintype L] in
theorem Asking.reader_bind {growing : Bool} {p : Prog sh R} {f : R → Prog sh S} (hp : Asking p)
    (hf : ∀ r, Reader growing (f r)) : Reader growing (p.bind f) :=
  hp.bind_induction (fun _ _ _ h => h) hf

omit [DecidableEq ι] [Fintype L] in
/-- A section that only asks leaves the data as it is. -/
theorem Reader.ends {growing : Bool} {p : Prog sh R} (hp : Reader growing p) (held : Finset L) (d : sh.AllData) :
    (ends held p d).2 = d ∧ ∃ growing, Reader growing (ends held p d).1 := by
  induction p generalizing growing held with
  | done r => exact ⟨rfl, true, trivial⟩
  | acquire l next ih => exact ih hp.2 _
  | release l next ih =>
    by_cases hempty : held.erase l = ∅
    · rw [ends_release_last hempty]
      exact ⟨rfl, false, hp⟩
    · rw [ends_release hempty]
      exact ih hp _
  | ask l q next ih => exact ih _ (hp _) _
  | write l w next => exact hp.elim

omit [DecidableEq ι] [Fintype L] in
/-- A reader ends in what it would alone over the data that answered it. -/
theorem Reader.alone_of_run {growing : Bool} {p : Prog sh R} (hp : Reader growing p) {as : List (Action sh)} {r : R}
    {d : sh.AllData} (h : Run Prog.Does p as (.done r))
    (hasks : ∀ l q a, Action.ask l q a ∈ as → a = sh.ask l q (d l)) : (alone p d).1 = r := by
  generalize hend : Prog.done r = p' at h
  induction h generalizing growing with
  | nil =>
    subst hend
    rfl
  | @cons p₁ p₂ p₃ a as hdoes _ ih =>
    have htail : ∀ l q a, Action.ask l q a ∈ as → a = sh.ask l q (d l) :=
      fun l q a ha => hasks l q a (List.mem_cons_of_mem _ ha)
    cases hdoes with
    | acquire l next => exact ih hp.2 htail hend
    | release l next => exact ih hp htail hend
    | ask l q next a =>
      obtain rfl := hasks l q a List.mem_cons_self
      exact ih (hp _) htail hend
    | write l w next => exact hp.elim

/-- What a reader has asked so far it asked of `data`, which what it holds still is. -/
structure Looked (s₀ : State sh ι R) (labels : List (ι × Action sh)) (s : State sh ι R) (i : ι) (data : sh.AllData) :
    Prop where
  held : ∀ l ∈ s.held i, s.data l = data l
  asks : ∀ l pre u, Asks s₀ labels i l pre u → u.data l = data l

section Looked

variable {s₀ s t : State sh ι R} {labels : List (ι × Action sh)} {i j : ι} {a : Action sh} {d : sh.AllData}

theorem Looked.step_other (h : Looked s₀ labels s i d) (hrun : Run Step s₀ labels s) (hstep : Step s (j, a) t)
    (hij : i ≠ j) : Looked s₀ (labels ++ [(j, a)]) t i d := by
  constructor
  · intro l hl
    rw [hstep.held_other hij] at hl
    rw [hstep.data_other hij hl]
    exact h.held l hl
  · intro l pre u hasks
    rcases hasks.snoc hrun with hasks | ⟨-, q, a', he⟩
    · exact h.asks l pre u hasks
    · cases he
      exact (hij rfl).elim

/-- A lock that a reader takes must hold what it looks at. -/
theorem Looked.step_self {growing : Bool} (h : Looked s₀ labels s i d) (hrun : Run Step s₀ labels s)
    (hstep : Step s (i, a) t) (hread : Reader growing (s.task i)) (hnew : ∀ l, a = .acquire l → s.data l = d l) :
    Looked s₀ (labels ++ [(i, a)]) t i d := by
  have hheld := hstep.held_self
  have hdata : t.data = s.data := by
    cases hstep with
    | acquire htask _ => rfl
    | release htask _ => rfl
    | ask htask _ => rfl
    | write htask _ =>
      rw [htask] at hread
      exact hread.elim
  constructor
  · intro l hl
    rw [hdata]
    rw [hheld] at hl
    cases a with
    | acquire m =>
      rcases Finset.mem_insert.1 hl with rfl | hl
      · exact hnew l rfl
      · exact h.held l hl
    | release m => exact h.held l (Finset.mem_of_mem_erase hl)
    | ask m q answer => exact h.held l hl
    | write m w => exact h.held l hl
  · intro l pre u hasks
    rcases hasks.snoc hrun with hasks | ⟨rfl, q, answer, he⟩
    · exact h.asks l pre u hasks
    · cases he
      cases hstep with
      | ask htask hholder => exact h.held l (State.mem_held.2 hholder)

/-- While it takes locks a reader looks at the present data between sections; from its first release on, at the data of
that moment. -/
def Looking (s₀ : State sh ι R) (c₀ : Atomic sh ι R) (labels : List (ι × Action sh)) (s : State sh ι R)
    (c : Atomic sh ι R) (i : ι) : Prop :=
  (Reader true (s.task i) ∧ Looked s₀ labels s i c.data ∧ ∀ l pre u, Asks s₀ labels i l pre u → l ∈ s.held i) ∨
    (Reader false (s.task i) ∧ ∃ sections c₁, Run AtomicStep c₀ sections c₁ ∧ Looked s₀ labels s i c₁.data)

variable {c₀ c c' : Atomic sh ι R}

theorem Looking.step_other (h : Looking s₀ c₀ labels s c i) (hrun : Run Step s₀ labels s) (hstep : Step s (j, a) t)
    (hij : i ≠ j) (hc : ∀ l ∈ s.held i, c'.data l = c.data l) : Looking s₀ c₀ (labels ++ [(j, a)]) t c' i := by
  rcases h with ⟨hread, hlooked, hheld⟩ | ⟨hread, sections, c₁, hc₁, hlooked⟩
  · have hlooked' : Looked s₀ labels s i c'.data := by
      refine ⟨fun l hl => (hlooked.held l hl).trans (hc l hl).symm, fun l pre u hasks => ?_⟩
      exact (hlooked.asks l pre u hasks).trans (hc l (hheld l pre u hasks)).symm
    refine Or.inl ⟨(hstep.task_other hij).symm ▸ hread, hlooked'.step_other hrun hstep hij, fun l pre u hasks => ?_⟩
    rw [hstep.held_other hij]
    rcases hasks.snoc hrun with hasks | ⟨-, q, a', he⟩
    · exact hheld l pre u hasks
    · cases he
      exact (hij rfl).elim
  · exact Or.inr ⟨(hstep.task_other hij).symm ▸ hread, sections, c₁, hc₁, hlooked.step_other hrun hstep hij⟩

theorem Looking.step_self {sections : List ι} (h : Looking s₀ c₀ labels s c i) (hrun : Run Step s₀ labels s)
    (hstep : Step s (i, a) t) (hc : Run AtomicStep c₀ sections c) (hfree : ∀ l, s.holder l = none → s.data l = c.data l)
    (hc' : c' = c ∨ ∃ l, a = .release l) : Looking s₀ c₀ (labels ++ [(i, a)]) t c' i := by
  rcases h with ⟨hread, hlooked, hasked⟩ | ⟨hread, sections₁, c₁, hc₁, hlooked⟩
  · have hnew : ∀ l, a = .acquire l → s.data l = c.data l := by
      rintro l rfl
      cases hstep with
      | acquire htask hnone => exact hfree l hnone
    have hlooked' := hlooked.step_self hrun hstep hread hnew
    have hread' := hread.does hstep.does
    by_cases hrelease : ∃ l, a = .release l
    · obtain ⟨l, rfl⟩ := hrelease
      exact Or.inr ⟨hread', sections, c, hc, hlooked'⟩
    · obtain rfl := hc'.resolve_right hrelease
      have hgrows : a.growsOn true = true := by
        cases a with
        | release l => exact (hrelease ⟨l, rfl⟩).elim
        | acquire l => rfl
        | ask l q answer => rfl
        | write l w => rfl
      refine Or.inl ⟨hgrows ▸ hread', hlooked', fun l pre u hasks => ?_⟩
      -- what is held is held on, and whoever asks holds the lock
      rcases hasks.snoc hrun with hasks | ⟨-, q, answer, he⟩
      · exact hstep.held_subset hrelease (hasked l pre u hasks)
      · cases he
        cases hstep with
        | ask htask hholder => exact State.mem_held.2 hholder
  · have hnew : ∀ l, a = .acquire l → s.data l = c₁.data l := by
      rintro l rfl
      cases hstep with
      | acquire htask hnone =>
        rw [htask] at hread
        cases hread.1
    have hshrinks : a.growsOn false = false := by cases a <;> rfl
    exact Or.inr ⟨hshrinks ▸ hread.does hstep.does, sections₁, c₁, hc₁, hlooked.step_self hrun hstep hread hnew⟩

end Looked

/-- A run of sections against which a reader looks as it goes. -/
theorem exists_looking {data : sh.AllData} {task : ι → Prog sh R} (htask : ∀ i, Follows true ∅ (task i))
    {labels : List (ι × Action sh)} {s : State sh ι R} (h : Run Step (State.start data task) labels s) {i : ι}
    (hread : Reader true (task i)) :
    ∃ sections c, Run AtomicStep { data, task } sections c ∧ Matches s c ∧
      Looking (State.start data task) { data, task } labels s c i := by
  induction labels using List.reverseRecOn generalizing s with
  | nil =>
    obtain rfl := run_nil_iff.1 h
    have hnone : ∀ l pre u, ¬ Asks (State.start data task) [] i l pre u := by
      rintro l pre u ⟨q, a, post, heq, -⟩
      simp at heq
    exact ⟨[], _, Run.nil _, Matches.start htask, Or.inl ⟨hread, ⟨fun _ _ => rfl, fun l pre u hasks =>
      (hnone l pre u hasks).elim⟩, fun l pre u hasks => (hnone l pre u hasks).elim⟩⟩
  | append_singleton labels e ih =>
    obtain ⟨u, hu, hstep⟩ := run_concat_iff.1 h
    obtain ⟨sections, c, hc, hmatches, hlooking⟩ := ih hu
    obtain ⟨j, a⟩ := e
    rcases hmatches.step hstep with hmatches' | ⟨hmatches', hrelease, hother⟩
    · refine ⟨sections, c, hc, hmatches', ?_⟩
      by_cases hij : i = j
      · subst hij
        exact hlooking.step_self hu hstep hc hmatches.free (Or.inl rfl)
      · exact hlooking.step_other hu hstep hij fun _ _ => rfl
    · refine ⟨sections ++ [j], c.next j, run_concat_iff.2 ⟨c, hc, rfl⟩, hmatches', ?_⟩
      by_cases hij : i = j
      · subst hij
        exact hlooking.step_self hu hstep hc hmatches.free (Or.inr hrelease)
      · exact hlooking.step_other hu hstep hij fun l hl => hother l (State.held_disjoint (Ne.symm hij) hl)

/-- All that a task with one read-only section looks at, and what it ends in, is of one state between whole sections. -/
theorem exists_snapshot {data : sh.AllData} {task : ι → Prog sh R} (htask : ∀ i, Follows true ∅ (task i))
    {labels : List (ι × Action sh)} {s : State sh ι R} (h : Run Step (State.start data task) labels s) {i : ι}
    (hread : Reader true (task i)) :
    ∃ sections c, Run AtomicStep { data, task } sections c ∧
      (∀ l pre u, Asks (State.start data task) labels i l pre u → u.data l = c.data l) ∧
      ∀ r, s.task i = .done r → (alone (task i) c.data).1 = r := by
  obtain ⟨sections, c, hc, -, hlooking⟩ := exists_looking htask h hread
  obtain ⟨sections, c, hc, hlooked⟩ : ∃ sections c, Run AtomicStep { data, task } sections c ∧
      Looked (State.start data task) labels s i c.data := by
    rcases hlooking with ⟨-, hlooked, -⟩ | ⟨-, sections, c, hc, hlooked⟩
    · exact ⟨sections, c, hc, hlooked⟩
    · exact ⟨sections, c, hc, hlooked⟩
  refine ⟨sections, c, hc, hlooked.asks, fun r hr => ?_⟩
  have hdoes := does_of_run h i
  rw [hr] at hdoes
  apply hread.alone_of_run hdoes
  intro l q a ha
  obtain ⟨pre, u, hasks, rfl⟩ := exists_asks h (mem_own.1 ha)
  rw [hlooked.asks l pre u hasks]

end EmsFixtures.Locks
