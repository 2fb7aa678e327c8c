import Mathlib.Data.Fintype.EquivFin
import Mathlib.Data.Fintype.Card
import EmsFixtures.Lib.Runs

/-!
# Tasks over locked data

Tasks run side by side over data behind locks, one action at a time: taking a lock, giving it back, asking something of
the data behind a lock one holds, writing to it.  A task follows the discipline (`Follows`) if it takes locks in order,
gives back all it takes, and takes none between giving one back and holding none.  Every reachable state is then
disciplined (`Disciplined.run`), and no set of tasks in it waits in a circle (`Disciplined.no_deadlock`).
-/

namespace EmsFixtures.Locks

open Runs

/-- Data behind locks: what can be asked of each, and how each can be written. -/
structure Shared (L : Type) where
  Data : L → Type
  Query : L → Type
  Answer : (l : L) → Query l → Type
  ask : (l : L) → (q : Query l) → Data l → Answer l q
  Write : L → Type
  apply : (l : L) → Write l → Data l → Data l

/-- What is behind every lock. -/
abbrev Shared.AllData {L : Type} (sh : Shared L) := (l : L) → sh.Data l

/-- A task that ends in an `R`. -/
inductive Prog {L : Type} (sh : Shared L) (R : Type) : Type
  | done (r : R)
  | acquire (l : L) (next : Prog sh R)
  | release (l : L) (next : Prog sh R)
  | ask (l : L) (q : sh.Query l) (next : sh.Answer l q → Prog sh R)
  | write (l : L) (w : sh.Write l) (next : Prog sh R)

inductive Action {L : Type} (sh : Shared L) : Type
  | acquire (l : L)
  | release (l : L)
  | ask (l : L) (q : sh.Query l) (a : sh.Answer l q)
  | write (l : L) (w : sh.Write l)

variable {L : Type} {sh : Shared L} {R S : Type}

namespace Prog

def bind (p : Prog sh R) (f : R → Prog sh S) : Prog sh S :=
  match p with
  | done r => f r
  | acquire l next => acquire l (next.bind f)
  | release l next => release l (next.bind f)
  | ask l q next => ask l q fun a => (next a).bind f
  | write l w next => write l w (next.bind f)

instance instMonad : Monad (Prog sh) where
  pure := done
  bind := bind

theorem bind_assoc {T : Type} (p : Prog sh R) (f : R → Prog sh S) (g : S → Prog sh T) :
    (p.bind f).bind g = p.bind fun r => (f r).bind g := by
  induction p with
  | done r => rfl
  | acquire l next ih => exact congrArg (acquire l) ih
  | release l next ih => exact congrArg (release l) ih
  | ask l q next ih => exact congrArg (ask l q) (funext ih)
  | write l w next ih => exact congrArg (write l w) ih

/-- The actions of a task by itself, whatever it is answered. -/
inductive Does : Prog sh R → Action sh → Prog sh R → Prop
  | acquire (l : L) (next : Prog sh R) : Does (acquire l next) (.acquire l) next
  | release (l : L) (next : Prog sh R) : Does (release l next) (.release l) next
  | ask (l : L) (q : sh.Query l) (next : sh.Answer l q → Prog sh R) (a : sh.Answer l q) :
      Does (ask l q next) (.ask l q a) (next a)
  | write (l : L) (w : sh.Write l) (next : Prog sh R) : Does (write l w next) (.write l w) next

/-- A task that is over does nothing. -/
theorem eq_of_run_done {r : R} {as : List (Action sh)} {p : Prog sh R} (h : Run Does (done r) as p) :
    as = [] ∧ p = done r := by
  cases h with
  | nil => exact ⟨rfl, rfl⟩
  | cons hdoes _ => cases hdoes

/-- The task does `a` on every way to its end. -/
def Always (a : Action sh) : Prog sh R → Prop
  | done _ => False
  | acquire l next => a = .acquire l ∨ next.Always a
  | release l next => a = .release l ∨ next.Always a
  | ask l q next => ∀ answer, a = .ask l q answer ∨ (next answer).Always a
  | write l w next => a = .write l w ∨ next.Always a

theorem Always.bind_left {a : Action sh} {p : Prog sh R} (hp : p.Always a) (f : R → Prog sh S) :
    (p.bind f).Always a := by
  induction p with
  | done r => exact hp.elim
  | acquire l next ih => exact hp.imp_right ih
  | release l next ih => exact hp.imp_right ih
  | ask l q next ih => exact fun answer => (hp answer).imp_right (ih answer)
  | write l w next ih => exact hp.imp_right ih

theorem Always.bind_right {a : Action sh} (p : Prog sh R) {f : R → Prog sh S} (hf : ∀ r, (f r).Always a) :
    (p.bind f).Always a := by
  induction p with
  | done r => exact hf r
  | acquire l next ih => exact Or.inr ih
  | release l next ih => exact Or.inr ih
  | ask l q next ih => exact fun answer => Or.inr (ih answer)
  | write l w next ih => exact Or.inr ih

theorem Always.forM {α : Type} {a : Action sh} {f : α → Prog sh Unit} {l : List α} {x : α} (hx : x ∈ l)
    (h : (f x).Always a) : Always a (l.forM f) := by
  induction l with
  | nil => cases hx
  | cons y l ih =>
    rcases List.mem_cons.1 hx with rfl | hx
    · exact h.bind_left fun _ => l.forM f
    · exact Always.bind_right (f y) fun _ => ih hx

theorem Always.mem_of_run {a : Action sh} {p : Prog sh R} (hp : p.Always a) {as : List (Action sh)} {r : R}
    (h : Run Does p as (done r)) : a ∈ as := by
  generalize hend : done r = p' at h
  induction h with
  | nil =>
    subst hend
    exact hp.elim
  | cons hdoes _ ih =>
    cases hdoes with
    | acquire l next => exact hp.elim (fun h => by simp [h]) fun h => List.mem_cons_of_mem _ (ih h hend)
    | release l next => exact hp.elim (fun h => by simp [h]) fun h => List.mem_cons_of_mem _ (ih h hend)
    | ask l q next answer =>
      exact (hp answer).elim (fun h => by simp [h]) fun h => List.mem_cons_of_mem _ (ih h hend)
    | write l w next => exact hp.elim (fun h => by simp [h]) fun h => List.mem_cons_of_mem _ (ih h hend)

end Prog

/-- `lock().await`. -/
def lock (l : L) : Prog sh Unit := .acquire l (.done ())

/-- The drop of a guard. -/
def unlock (l : L) : Prog sh Unit := .release l (.done ())

/-! ### Tasks side by side -/

structure State (sh : Shared L) (ι R : Type) where
  data : sh.AllData
  holder : L → Option ι
  task : ι → Prog sh R

variable {ι : Type}

/-- All tasks before their first action. -/
def State.start (data : sh.AllData) (task : ι → Prog sh R) : State sh ι R := { data, holder := fun _ => none, task }

section Own

variable [DecidableEq ι]

/-- The actions of a task among those of all. -/
def own (i : ι) (labels : List (ι × Action sh)) : List (Action sh) :=
  (labels.filter fun e => e.1 = i).map Prod.snd

theorem own_append (i : ι) (labels labels' : List (ι × Action sh)) :
    own i (labels ++ labels') = own i labels ++ own i labels' := by
  simp [own]

@[simp] theorem own_self (i : ι) (a : Action sh) : own i [(i, a)] = [a] := by simp [own]

theorem own_other {i j : ι} (h : j ≠ i) (a : Action sh) : own j [(i, a)] = [] := by simp [own, Ne.symm h]

theorem mem_own {i : ι} {labels : List (ι × Action sh)} {a : Action sh} : a ∈ own i labels ↔ (i, a) ∈ labels := by
  simp [own]

end Own

variable [LinearOrder L] [DecidableEq ι]

/-- One action of one task.  Data is touched only under its lock, which a guard sees to. -/
inductive Step : State sh ι R → ι × Action sh → State sh ι R → Prop
  | acquire {s : State sh ι R} {i : ι} {l : L} {next : Prog sh R} (htask : s.task i = .acquire l next)
      (hfree : s.holder l = none) :
      Step s (i, .acquire l)
        { s with holder := Function.update s.holder l (some i), task := Function.update s.task i next }
  | release {s : State sh ι R} {i : ι} {l : L} {next : Prog sh R} (htask : s.task i = .release l next)
      (hheld : s.holder l = some i) :
      Step s (i, .release l)
        { s with holder := Function.update s.holder l none, task := Function.update s.task i next }
  | ask {s : State sh ι R} {i : ι} {l : L} {q : sh.Query l} {next : sh.Answer l q → Prog sh R}
      (htask : s.task i = .ask l q next) (hheld : s.holder l = some i) :
      Step s (i, .ask l q (sh.ask l q (s.data l)))
        { s with task := Function.update s.task i (next (sh.ask l q (s.data l))) }
  | write {s : State sh ι R} {i : ι} {l : L} {w : sh.Write l} {next : Prog sh R}
      (htask : s.task i = .write l w next) (hheld : s.holder l = some i) :
      Step s (i, .write l w)
        { s with data := Function.update s.data l (sh.apply l w (s.data l)), task := Function.update s.task i next }

theorem Step.det (s : State sh ι R) (e : ι × Action sh) (t t' : State sh ι R) (h : Step s e t) (h' : Step s e t') :
    t = t' := by
  cases h with
  | acquire htask _ =>
    cases h' with
    | acquire htask' _ =>
      rw [htask] at htask'
      cases htask'
      rfl
  | release htask _ =>
    cases h' with
    | release htask' _ =>
      rw [htask] at htask'
      cases htask'
      rfl
  | ask htask _ =>
    cases h' with
    | ask htask' _ =>
      rw [htask] at htask'
      cases htask'
      rfl
  | write htask _ =>
    cases h' with
    | write htask' _ =>
      rw [htask] at htask'
      cases htask'
      rfl

theorem Step.task_other {s t : State sh ι R} {i j : ι} {a : Action sh} (h : Step s (i, a) t) (hj : j ≠ i) :
    t.task j = s.task j := by
  cases h <;> exact Function.update_of_ne hj ..

/-- A task about to write does so by its next action. -/
theorem Step.data_of_write {s t : State sh ι R} {i : ι} {a : Action sh} {l : L} {w : sh.Write l} {next : Prog sh R}
    (h : Step s (i, a) t) (htask : s.task i = .write l w next) :
    t.data = Function.update s.data l (sh.apply l w (s.data l)) := by
  cases h with
  | acquire htask' _ => cases htask.symm.trans htask'
  | release htask' _ => cases htask.symm.trans htask'
  | ask htask' _ => cases htask.symm.trans htask'
  | write htask' _ =>
    cases htask.symm.trans htask'
    rfl

theorem Step.does {s t : State sh ι R} {i : ι} {a : Action sh} (h : Step s (i, a) t) :
    Prog.Does (s.task i) a (t.task i) := by
  cases h with
  | acquire htask _ =>
    simp only [htask, Function.update_self]
    exact .acquire ..
  | release htask _ =>
    simp only [htask, Function.update_self]
    exact .release ..
  | ask htask _ =>
    simp only [htask, Function.update_self]
    exact .ask ..
  | write htask _ =>
    simp only [htask, Function.update_self]
    exact .write ..

/-- What a task does in a run is one of its own ways through its program. -/
theorem does_of_run {s t : State sh ι R} {labels : List (ι × Action sh)} (h : Run Step s labels t) (i : ι) :
    Run Prog.Does (s.task i) (own i labels) (t.task i) := by
  induction h with
  | nil s => exact Run.nil _
  | @cons s t u e labels hstep _ ih =>
    obtain ⟨j, a⟩ := e
    rw [← List.singleton_append, own_append]
    by_cases hj : i = j
    · subst hj
      rw [own_self]
      exact Run.cons hstep.does ih
    · rw [own_other hj, List.nil_append, ← hstep.task_other hj]
      exact ih

/-! ### What a task holds -/

variable [Fintype L]

def State.held (s : State sh ι R) (i : ι) : Finset L := Finset.univ.filter fun l => s.holder l = some i

omit [LinearOrder L] in
@[simp] theorem State.mem_held {s : State sh ι R} {i : ι} {l : L} : l ∈ s.held i ↔ s.holder l = some i := by
  simp [State.held]

omit [LinearOrder L] in
@[simp] theorem State.held_start (data : sh.AllData) (task : ι → Prog sh R) (i : ι) :
    (State.start data task).held i = ∅ := by
  ext l
  simp [State.start]

omit [LinearOrder L] in
theorem State.held_disjoint {s : State sh ι R} {i j : ι} (hij : j ≠ i) {l : L} (h : l ∈ s.held i) : l ∉ s.held j := by
  intro h'
  rw [State.mem_held] at h h'
  rw [h] at h'
  exact hij (Option.some.inj h').symm

/-- What an action does to the locks its task holds. -/
def Action.heldAfter (held : Finset L) : Action sh → Finset L
  | .acquire l => insert l held
  | .release l => held.erase l
  | .ask .. => held
  | .write .. => held

theorem Step.held_self {s t : State sh ι R} {i : ι} {a : Action sh} (h : Step s (i, a) t) :
    t.held i = a.heldAfter (s.held i) := by
  cases h with
  | @acquire _ l next htask hfree =>
    ext m
    by_cases hm : m = l
    · subst hm
      simp [Action.heldAfter]
    · simp [Action.heldAfter, hm]
  | @release _ l next htask hheld =>
    ext m
    by_cases hm : m = l
    · subst hm
      simp [Action.heldAfter]
    · simp [Action.heldAfter, hm]
  | ask htask hheld => rfl
  | write htask hheld => rfl

theorem Step.held_subset {s t : State sh ι R} {i : ι} {a : Action sh} (h : Step s (i, a) t)
    (ha : ¬ ∃ l, a = .release l) : s.held i ⊆ t.held i := by
  rw [h.held_self]
  cases a with
  | acquire l => exact Finset.subset_insert l _
  | release l => exact (ha ⟨l, rfl⟩).elim
  | ask l q answer => exact subset_rfl
  | write l w => exact subset_rfl

theorem Step.held_other {s t : State sh ι R} {i j : ι} {a : Action sh} (h : Step s (i, a) t) (hj : j ≠ i) :
    t.held j = s.held j := by
  cases h with
  | @acquire _ l next htask hfree =>
    ext m
    by_cases hm : m = l
    · subst hm
      simp [hfree, Ne.symm hj]
    · simp [hm]
  | @release _ l next htask hheld =>
    ext m
    by_cases hm : m = l
    · subst hm
      simp [hheld, Ne.symm hj]
    · simp [hm]
  | ask htask hheld => rfl
  | write htask hheld => rfl

/-- A task's data is written by nobody else. -/
theorem Step.data_other {s t : State sh ι R} {i j : ι} {a : Action sh} (h : Step s (i, a) t) (hj : j ≠ i) {l : L}
    (hl : l ∈ s.held j) : t.data l = s.data l := by
  cases h with
  | acquire htask hfree => rfl
  | release htask hheld => rfl
  | ask htask hheld => rfl
  | @write _ m w next htask hheld =>
    have hne : l ≠ m := by
      rintro rfl
      exact State.held_disjoint hj (State.mem_held.2 hheld) hl
    exact Function.update_of_ne hne ..

/-! ### The discipline -/

/-- From holding `held`, a task takes locks only above those it holds and only while growing, touches what it holds, and
ends with none; having given one back it grows no more until it holds none. -/
def Follows : Bool → Finset L → Prog sh R → Prop
  | _, held, .done _ => held = ∅
  | growing, held, .acquire l next => growing = true ∧ (∀ m ∈ held, m < l) ∧ Follows true (insert l held) next
  | _, held, .release l next => l ∈ held ∧ Follows (decide (held.erase l = ∅)) (held.erase l) next
  | growing, held, .ask l _ next => l ∈ held ∧ ∀ a, Follows growing held (next a)
  | growing, held, .write l _ next => l ∈ held ∧ Follows growing held next

omit [DecidableEq ι] [Fintype L] in
theorem Follows.release_of {growing : Bool} {held rest : Finset L} {l : L} {next : Prog sh R} (hl : l ∈ held)
    (hrest : held.erase l = rest) (hnext : Follows (decide (rest = ∅)) rest next) :
    Follows growing held (.release l next) := by
  subst hrest
  exact ⟨hl, hnext⟩

omit [DecidableEq ι] [Fintype L] in
/-- What a task ends in does not matter to the discipline. -/
theorem Follows.map {growing : Bool} {held : Finset L} {p : Prog sh R} (hp : Follows growing held p) (f : R → S) :
    Follows growing held (p.bind fun r => .done (f r)) := by
  induction p generalizing growing held with
  | done r => exact hp
  | acquire l next ih => exact ⟨hp.1, hp.2.1, ih hp.2.2⟩
  | release l next ih => exact ⟨hp.1, ih hp.2⟩
  | ask l q next ih => exact ⟨hp.1, fun a => ih a (hp.2 a)⟩
  | write l w next ih => exact ⟨hp.1, ih hp.2⟩

/-- A stretch of a task that only touches what is held. -/
def Within (held : Finset L) : Prog sh R → Prop
  | .done _ => True
  | .acquire .. => False
  | .release .. => False
  | .ask l _ next => l ∈ held ∧ ∀ a, Within held (next a)
  | .write l _ next => l ∈ held ∧ Within held next

omit [DecidableEq ι] [Fintype L] [LinearOrder L] in
/-- What touching held data preserves holds before such a stretch if it holds after it. -/
theorem Within.bind_induction {held : Finset L} {P : Prog sh S → Prop}
    (hask : ∀ l q next, l ∈ held → (∀ a, P (next a)) → P (.ask l q next))
    (hwrite : ∀ l w next, l ∈ held → P next → P (.write l w next)) {p : Prog sh R} {f : R → Prog sh S}
    (hp : Within held p) (hf : ∀ r, P (f r)) : P (p.bind f) := by
  induction p with
  | done r => exact hf r
  | acquire l next => exact hp.elim
  | release l next => exact hp.elim
  | ask l q next ih => exact hask l q _ hp.1 fun a => ih a (hp.2 a)
  | write l w next ih => exact hwrite l w _ hp.1 (ih hp.2)

omit [DecidableEq ι] [Fintype L] [LinearOrder L] in
theorem Within.bind {held : Finset L} {p : Prog sh R} {f : R → Prog sh S} (hp : Within held p)
    (hf : ∀ r, Within held (f r)) : Within held (p.bind f) :=
  hp.bind_induction (fun _ _ _ hl h => ⟨hl, h⟩) (fun _ _ _ hl h => ⟨hl, h⟩) hf

omit [DecidableEq ι] [Fintype L] [LinearOrder L] in
theorem Within.forM {held : Finset L} {α : Type} {f : α → Prog sh Unit} {l : List α} (h : ∀ a, Within held (f a)) :
    Within held (l.forM f) := by
  induction l with
  | nil => trivial
  | cons a l ih => exact (h a).bind fun _ => ih

omit [DecidableEq ι] [Fintype L] [LinearOrder L] in
theorem Within.foldlM {held : Finset L} {α β : Type} {f : β → α → Prog sh β} {l : List α} {b : β}
    (h : ∀ b a, Within held (f b a)) : Within held (l.foldlM f b) := by
  induction l generalizing b with
  | nil => trivial
  | cons a l ih => exact (h b a).bind fun b => ih

omit [Fintype L] in
/-- What follows a stretch follows the discipline from where the stretch began. -/
theorem Within.follows_bind {growing : Bool} {held : Finset L} {p : Prog sh R} {f : R → Prog sh S}
    (hp : Within held p) (hf : ∀ r, Follows growing held (f r)) : Follows growing held (p.bind f) :=
  hp.bind_induction (fun _ _ _ hl h => ⟨hl, h⟩) (fun _ _ _ hl h => ⟨hl, h⟩) hf

/-- Every task follows the discipline from what it holds. -/
def Disciplined (s : State sh ι R) : Prop := ∀ i, ∃ growing, Follows growing (s.held i) (s.task i)

theorem Disciplined.start {data : sh.AllData} {task : ι → Prog sh R} (h : ∀ i, Follows true ∅ (task i)) :
    Disciplined (State.start data task) := by
  intro i
  rw [State.held_start]
  exact ⟨true, h i⟩

omit [DecidableEq ι] [Fintype L] in
/-- After an action the task follows the discipline from what it then holds. -/
theorem Follows.does {growing : Bool} {held : Finset L} {p p' : Prog sh R} {a : Action sh}
    (h : Follows growing held p) (hdoes : Prog.Does p a p') : ∃ growing, Follows growing (a.heldAfter held) p' := by
  cases hdoes with
  | acquire l next => exact ⟨true, h.2.2⟩
  | release l next => exact ⟨_, h.2⟩
  | ask l q next a => exact ⟨growing, h.2 a⟩
  | write l w next => exact ⟨growing, h.2⟩

theorem Disciplined.step {s t : State sh ι R} {e : ι × Action sh} (h : Disciplined s) (hstep : Step s e t) :
    Disciplined t := by
  obtain ⟨i, a⟩ := e
  intro j
  by_cases hj : j = i
  · subst hj
    obtain ⟨growing, hi⟩ := h j
    rw [hstep.held_self]
    exact hi.does hstep.does
  · rw [hstep.held_other hj, hstep.task_other hj]
    exact h j

theorem Disciplined.run {s t : State sh ι R} {labels : List (ι × Action sh)} (h : Disciplined s)
    (hrun : Run Step s labels t) : Disciplined t := by
  induction hrun with
  | nil s => exact h
  | cons hstep _ ih => exact ih (h.step hstep)

/-! ### Deadlock -/

/-- Task `i` waits for a lock that task `j` holds. -/
def State.WaitsFor (s : State sh ι R) (i j : ι) : Prop :=
  ∃ l next, s.task i = .acquire l next ∧ s.holder l = some j

/-- A set of tasks each of which waits for one of them. -/
def State.Deadlocked (s : State sh ι R) (tasks : Set ι) : Prop :=
  tasks.Nonempty ∧ ∀ i ∈ tasks, ∃ j ∈ tasks, s.WaitsFor i j

/-- Whoever holds the lock that another waits for can only wait for a higher one, so some task of a set does not wait
for the set. -/
theorem Disciplined.no_deadlock {s : State sh ι R} (h : Disciplined s) (tasks : Set ι) : ¬ s.Deadlocked tasks := by
  rintro ⟨⟨i, hi⟩, hwaits⟩
  -- downwards on the lock waited for: locks are finitely many
  have hnone : ∀ l, ∀ i ∈ tasks, ∀ next, s.task i ≠ .acquire l next := by
    intro l
    induction l using (wellFounded_gt (α := L)).induction with
    | _ l ih =>
      intro i hi next htask
      obtain ⟨j, hj, l', next', htask', hheld⟩ := hwaits i hi
      rw [htask] at htask'
      cases htask'
      obtain ⟨-, -, m, next', hjtask, -⟩ := hwaits j hj
      obtain ⟨growing, hfollows⟩ := h j
      rw [hjtask] at hfollows
      have hlt : l < m := hfollows.2.1 l (State.mem_held.2 hheld)
      exact ih m hlt j hj next' hjtask
  obtain ⟨-, -, l, next, htask, -⟩ := hwaits i hi
  exact hnone l i hi next htask

end EmsFixtures.Locks
