import CallWire.Proofs.Set.Membership
import CallWire.Set.DispatchPool

/-!
# CallWire.Proofs.Set.Tasks — no task is stranded or run twice

Each operation of a pool holds one lock from its beginning to its end, so the threads that hand in
tasks, start further threads and stop all of them come one after another.  What is to be dropped is
dropped when that lock is free again; and a thread that was told to stop goes on with its tasks, or
drops them, in its own time.  A connection is ended by its task, whether that runs to its end or is
dropped on the way.
-/

namespace CallWire

/-! ### Handing out tasks -/

namespace DispatchPool

variable {Task : Type}

/-- Some thread gets the task, after those that it has. -/
def Gives (task : Task) (ws ws' : List (List Task)) : Prop :=
  ∃ before w after, ws = before ++ w :: after ∧ ws' = before ++ (w ++ [task]) :: after

/-- Threads get these tasks, one after the other. -/
inductive HandsOut : List Task → List (List Task) → List (List Task) → Prop
  | nil {ws : List (List Task)} : HandsOut [] ws ws
  | cons {task : Task} {tasks : List Task} {ws ws₁ ws₂ : List (List Task)}
      (hgives : Gives task ws ws₁) (hrest : HandsOut tasks ws₁ ws₂) :
      HandsOut (task :: tasks) ws ws₂

/-- The cases of `spawn`, whichever thread has the fewest tasks: the tasks rejected and the pool. -/
inductive Spawns (p : DispatchPool Task) (task : Task) : List Task → DispatchPool Task → Prop
  | refused (h : p.isStopped = true) : Spawns p task [task] p
  | waits (h : p.isStopped = false) (hnone : p.workers = []) :
      Spawns p task [] { p with backlog := p.backlog ++ [task] }
  | given (h : p.isStopped = false) {ws : List (List Task)} (hgives : Gives task p.workers ws) :
      Spawns p task [] { p with workers := ws }

/-- The cases of `start`, whichever thread has the fewest tasks each time. -/
inductive Starts (p : DispatchPool Task) (count : Nat) : DispatchPool Task → Prop
  | refused (h : count = 0 ∨ p.isStopped = true) : Starts p count p
  | started (h : p.isStopped = false) (hcount : count ≠ 0) {ws : List (List Task)}
      (hout : HandsOut p.backlog (p.workers ++ List.replicate count []) ws)
      (ids : List ThreadId) :
      Starts p count { p with workers := ws, threadIds := ids, backlog := [] }

variable {p p' : DispatchPool Task} {task : Task} {tasks : List Task} {ws ws' : List (List Task)}

theorem Gives.ne_nil (h : Gives task ws ws') : ws ≠ [] ∧ ws' ≠ [] := by
  obtain ⟨before, w, after, rfl, rfl⟩ := h
  exact ⟨List.append_ne_nil_of_right_ne_nil _ nofun, List.append_ne_nil_of_right_ne_nil _ nofun⟩

theorem Gives.perm (h : Gives task ws ws') : ws'.flatten.Perm (ws.flatten ++ [task]) := by
  obtain ⟨before, w, after, rfl, rfl⟩ := h
  simp only [List.flatten_append, List.flatten_cons, List.append_assoc]
  exact (List.perm_append_comm.append_left w).append_left before.flatten

theorem HandsOut.perm (h : HandsOut tasks ws ws') : ws'.flatten.Perm (ws.flatten ++ tasks) := by
  induction h with
  | nil => exact List.Perm.of_eq (List.append_nil _).symm
  | cons hgives _ ih =>
    refine ih.trans ((hgives.perm.append_right _).trans (List.Perm.of_eq ?_))
    rw [List.append_assoc]
    rfl

end DispatchPool

/-! ### Threads, tasks and connections -/

inductive Task
  | listener (k : Nat)
  | connection (i : Nat)
  deriving DecidableEq

/-- How a task has left its thread. -/
inductive Exit
  /-- It has run to its end, for this reason of the connection. -/
  | ended (reason : DisconnectReason)
  | dropped

/-- The reason for which the connection of the task ends. -/
def Exit.reason : Exit → DisconnectReason
  | ended reason => reason
  | dropped => .user

/-- A pool with all its tasks, and the connections that they serve. -/
structure Crew where
  pool : DispatchPool Task := {}
  /-- The tasks of each thread that was told to stop. -/
  stopping : List (List Task) := []
  /-- Tasks that were rejected and are not dropped yet. -/
  dropping : List Task := []
  /-- Tasks that have ended or were dropped, oldest first. -/
  gone : List (Task × Exit) := []
  handed : List Task := []
  courses : List Course := []

namespace Crew

def places (s : Crew) : List Task :=
  s.pool.backlog ++ (s.pool.workers.flatten ++ (s.stopping.flatten ++
    (s.dropping ++ s.gone.map Prod.fst)))

/-- A connection has to be tracked before its task is spawned. -/
def IsReady (s : Crew) : Task → Prop
  | .listener _ => True
  | .connection i => ∃ c, s.courses[i]? = some c ∧ c.IsServed

/-- The task has ended or was dropped, which ends its connection. -/
def leave (s : Crew) (task : Task) (exit : Exit) : Crew :=
  { s with
    gone := s.gone ++ [(task, exit)]
    courses := match task with
      | .listener _ => s.courses
      | .connection i => s.courses.modify i (·.finish exit.reason) }

/-- `stop`: the tasks of the threads go to `stopping`, and the backlog to `dropping`. -/
def stop (s : Crew) : Crew :=
  { s with
    pool := s.pool.stop.2
    stopping := s.stopping ++ s.pool.workers
    dropping := s.dropping ++ s.pool.backlog }

/-- One critical section of one thread.  No task is spawned twice, and a connection that was tracked
is ended by its task only. -/
inductive Step (s : Crew) : Crew → Prop
  | create : Step s { s with courses := s.courses ++ [{}] }
  | connection {i : Nat} {c c' : Course} (hc : s.courses[i]? = some c) (hstep : c.Step c')
      (hkept : c.IsServed → c'.endings.length = c.endings.length) :
      Step s { s with courses := s.courses.set i c' }
  | spawn {task : Task} {rejected : List Task} {pool : DispatchPool Task} (hready : s.IsReady task)
      (hnew : task ∉ s.handed) (hspawns : s.pool.Spawns task rejected pool) :
      Step s { s with
        pool, dropping := s.dropping ++ rejected, handed := s.handed ++ [task] }
  | start {count : Nat} {pool : DispatchPool Task} (hstarts : s.pool.Starts count pool) :
      Step s { s with pool }
  | stop : Step s s.stop
  | leave {task : Task} (h : task ∈ s.pool.workers.flatten) (exit : Exit) :
      Step s { s.leave task exit with pool := s.pool.finish task }
  | retire {task : Task} (h : task ∈ s.stopping.flatten) (exit : Exit) :
      Step s { s.leave task exit with stopping := s.stopping.map (List.filter (· != task)) }
  | drop {task : Task} (h : task ∈ s.dropping) :
      Step s { s.leave task .dropped with dropping := s.dropping.filter (· != task) }

def Reachable (s : Crew) : Prop := Relation.ReflTransGen Step {} s

variable {s s' : Crew}

/-! ### Every task is in one place -/

/-- Every task is in one place, and none in the backlog if there is a thread.  The backlog is in the
order in which tasks were spawned. -/
structure Placed (s : Crew) : Prop where
  perm : s.handed.Perm s.places
  nodup : s.handed.Nodup
  inOrder : s.pool.backlog.Sublist s.handed
  busy : s.pool.workers ≠ [] → s.pool.backlog = []
  stopped : s.pool.isStopped = true → s.pool.workers = [] ∧ s.pool.backlog = []

theorem count_places (s : Crew) (x : Task) : s.places.count x =
    s.pool.backlog.count x + (s.pool.workers.flatten.count x + (s.stopping.flatten.count x +
      (s.dropping.count x + (s.gone.map Prod.fst).count x))) := by
  unfold places
  simp only [List.count_append]

theorem count_filter_ne {l : List Task} {task : Task} (h : l.Nodup) (hmem : task ∈ l) (x : Task) :
    l.count x = (l.filter (· != task)).count x + [task].count x := by
  have hperm := (List.perm_cons_erase hmem).count_eq x
  rw [h.erase_eq_filter, List.count_cons] at hperm
  rw [hperm, List.count_singleton]

theorem Placed.nodup_places (h : s.Placed) : s.places.Nodup := h.perm.nodup_iff.mp h.nodup

theorem Placed.of_mem (h : s.Placed) {task : Task}
    (hmem : task ∈ s.pool.workers.flatten ++ (s.stopping.flatten ++ s.dropping)) :
    task ∈ s.handed ∧ task ∉ s.gone.map Prod.fst := by
  have hplaces : s.places.Perm (s.pool.backlog ++
      ((s.pool.workers.flatten ++ (s.stopping.flatten ++ s.dropping)) ++ s.gone.map Prod.fst)) := by
    unfold places
    simp only [List.append_assoc]
    exact List.Perm.refl _
  have hperm := h.perm.trans hplaces
  refine ⟨hperm.mem_iff.mpr (List.mem_append_right _ (List.mem_append_left _ hmem)), ?_⟩
  have hnodup := hperm.nodup_iff.mp h.nodup
  exact fun hgone =>
    (List.nodup_append.mp (List.nodup_append.mp hnodup).2.1).2.2 task hmem task hgone rfl

theorem Placed.spawn (h : s.Placed) {task : Task} {rejected : List Task} {pool : DispatchPool Task}
    (hnew : task ∉ s.handed) (hspawns : s.pool.Spawns task rejected pool) :
    Placed { s with pool, dropping := s.dropping ++ rejected, handed := s.handed ++ [task] } := by
  have hnodup : (s.handed ++ [task]).Nodup :=
    h.nodup.append (List.nodup_singleton _) (List.disjoint_singleton.mpr hnew)
  have hrunning {q : DispatchPool Task} (hstopped : q.isStopped = true)
      (hsame : q.isStopped = s.pool.isStopped) (hopen : s.pool.isStopped = false) : False := by
    rw [hsame, hopen] at hstopped
    cases hstopped
  -- The new task is dropped, waits in the backlog, or is on a thread: in one place each time.
  refine ⟨List.perm_iff_count.mpr fun x => ?_, hnodup, ?_, ?_, ?_⟩
  · have hx := h.perm.count_eq x
    rw [count_places] at hx ⊢
    cases hspawns with
    | refused hstopped =>
      simp only [List.count_append] at hx ⊢
      omega
    | waits hopen hnone =>
      simp only [List.count_append, List.count_nil] at hx ⊢
      omega
    | given hopen hgives =>
      have hgiven := hgives.perm.count_eq x
      simp only [List.count_append, List.count_nil] at hx hgiven ⊢
      omega
  · cases hspawns with
    | refused hstopped => exact h.inOrder.trans (List.sublist_append_left _ _)
    | waits hopen hnone => exact h.inOrder.append (List.Sublist.refl _)
    | given hopen hgives => exact h.inOrder.trans (List.sublist_append_left _ _)
  · cases hspawns with
    | refused hstopped => exact h.busy
    | waits hopen hnone => exact fun hne => absurd hnone hne
    | given hopen hgives => exact fun _ => h.busy hgives.ne_nil.1
  · cases hspawns with
    | refused hstopped => exact h.stopped
    | waits hopen hnone => exact fun hstopped => (hrunning hstopped rfl hopen).elim
    | given hopen hgives => exact fun hstopped => (hrunning hstopped rfl hopen).elim

theorem Placed.start (h : s.Placed) {count : Nat} {pool : DispatchPool Task}
    (hstarts : s.pool.Starts count pool) : Placed { s with pool } := by
  cases hstarts with
  | refused hrefused => exact ⟨h.perm, h.nodup, h.inOrder, h.busy, h.stopped⟩
  | started hopen hcount hout =>
    refine ⟨List.perm_iff_count.mpr fun x => ?_, h.nodup, List.nil_sublist _, fun _ => rfl, ?_⟩
    · have hx := h.perm.count_eq x
      have hhanded := hout.perm.count_eq x
      rw [count_places] at hx ⊢
      rw [List.flatten_append, List.flatten_replicate_nil] at hhanded
      simp only [List.count_append, List.count_nil] at hx hhanded ⊢
      omega
    · intro hstopped
      rw [show s.pool.isStopped = true from hstopped] at hopen
      cases hopen

theorem Placed.stop (h : s.Placed) : s.stop.Placed := by
  refine ⟨List.perm_iff_count.mpr fun x => ?_, h.nodup, List.nil_sublist _, fun _ => rfl,
    fun _ => ⟨rfl, rfl⟩⟩
  have hx := h.perm.count_eq x
  rw [count_places] at hx ⊢
  dsimp only [Crew.stop, DispatchPool.stop]
  rw [List.flatten_append]
  simp only [List.count_append, List.flatten_nil, List.count_nil] at hx ⊢
  omega

theorem Placed.perm_leave (h : s.Placed) {task : Task} (exit : Exit) {s' : Crew}
    (hhanded : s'.handed = s.handed) (hgone : s'.gone = (s.leave task exit).gone)
    (hrest : ∀ x, s'.pool.backlog.count x + (s'.pool.workers.flatten.count x +
        (s'.stopping.flatten.count x + s'.dropping.count x)) + [task].count x =
      s.pool.backlog.count x + (s.pool.workers.flatten.count x +
        (s.stopping.flatten.count x + s.dropping.count x))) : s'.handed.Perm s'.places := by
  rw [List.perm_iff_count]
  intro x
  have hx := h.perm.count_eq x
  have hrest' := hrest x
  rw [count_places] at hx ⊢
  rw [hhanded, hgone]
  dsimp only [leave]
  simp only [List.map_append, List.map_cons, List.map_nil, List.count_append]
  omega

theorem Placed.leave (h : s.Placed) {task : Task} (hmem : task ∈ s.pool.workers.flatten)
    (exit : Exit) : Placed { s.leave task exit with pool := s.pool.finish task } := by
  have hnodup : s.pool.workers.flatten.Nodup :=
    h.nodup_places.sublist ((List.sublist_append_left _ _).trans (List.sublist_append_right _ _))
  have hworkers : (s.pool.finish task).workers.flatten =
      s.pool.workers.flatten.filter (· != task) := List.filter_flatten.symm
  refine ⟨h.perm_leave exit rfl rfl fun x => ?_, h.nodup, h.inOrder, ?_, ?_⟩
  · have hleft := count_filter_ne hnodup hmem x
    show s.pool.backlog.count x + ((s.pool.finish task).workers.flatten.count x + _) + _ = _
    rw [hworkers]
    dsimp only [Crew.leave]
    omega
  · intro hne
    exact h.busy fun hnil => hne (by rw [DispatchPool.finish, hnil]; rfl)
  · intro hstopped
    obtain ⟨hnone, -⟩ := h.stopped hstopped
    rw [hnone] at hmem
    cases hmem

theorem Placed.retire (h : s.Placed) {task : Task} (hmem : task ∈ s.stopping.flatten)
    (exit : Exit) : Placed { s.leave task exit with
      stopping := s.stopping.map (List.filter (· != task)) } := by
  have hnodup : s.stopping.flatten.Nodup :=
    h.nodup_places.sublist ((List.sublist_append_left _ _).trans
      ((List.sublist_append_right _ _).trans (List.sublist_append_right _ _)))
  refine ⟨h.perm_leave exit rfl rfl fun x => ?_, h.nodup, h.inOrder, h.busy, h.stopped⟩
  have hleft := count_filter_ne hnodup hmem x
  rw [List.filter_flatten] at hleft
  dsimp only [Crew.leave]
  omega

theorem Placed.drop (h : s.Placed) {task : Task} (hmem : task ∈ s.dropping) :
    Placed { s.leave task .dropped with dropping := s.dropping.filter (· != task) } := by
  have hnodup : s.dropping.Nodup :=
    h.nodup_places.sublist ((List.sublist_append_left _ _).trans
      ((List.sublist_append_right _ _).trans
        ((List.sublist_append_right _ _).trans (List.sublist_append_right _ _))))
  refine ⟨h.perm_leave .dropped rfl rfl fun x => ?_, h.nodup, h.inOrder, h.busy, h.stopped⟩
  have hleft := count_filter_ne hnodup hmem x
  dsimp only [Crew.leave]
  omega

theorem Placed.step (h : s.Placed) (hstep : s.Step s') : s'.Placed := by
  cases hstep with
  | create => exact ⟨h.perm, h.nodup, h.inOrder, h.busy, h.stopped⟩
  | connection hc hcourse hkept => exact ⟨h.perm, h.nodup, h.inOrder, h.busy, h.stopped⟩
  | spawn hready hnew hspawns => exact h.spawn hnew hspawns
  | start hstarts => exact h.start hstarts
  | stop => exact h.stop
  | leave hmem exit => exact h.leave hmem exit
  | retire hmem exit => exact h.retire hmem exit
  | drop hmem => exact h.drop hmem

theorem Reachable.placed (h : s.Reachable) : s.Placed := by
  induction h with
  | refl => exact ⟨.refl _, List.nodup_nil, .refl _, fun _ => rfl, nofun⟩
  | tail _ hstep ih => exact ih.step hstep

/-! ### Connections are ended by their tasks -/

/-- A connection whose task was spawned has been ended as often as its task has left. -/
structure Serving (s : Crew) : Prop where
  staged : ∀ c ∈ s.courses, c.IsStaged ∧ c.EndsDecided
  ready : ∀ task ∈ s.handed, s.IsReady task
  ended : ∀ (i : Nat) c, s.courses[i]? = some c → c.IsServed →
    c.endings.length = (s.gone.map Prod.fst).count (.connection i)

theorem Placed.mem_handed_of_gone (h : s.Placed) {task : Task}
    (hmem : task ∈ s.gone.map Prod.fst) : task ∈ s.handed := by
  refine h.perm.mem_iff.mpr ?_
  unfold places
  simp only [List.mem_append]
  exact .inr (.inr (.inr (.inr hmem)))

theorem Serving.replace (h : s.Serving) {i : Nat} {c c' : Course} (hc : s.courses[i]? = some c)
    (hstep : c.Step c') (hcourses : s'.courses = s.courses.set i c')
    (hhanded : s'.handed = s.handed)
    (hothers : ∀ j, j ≠ i → (s'.gone.map Prod.fst).count (.connection j) =
      (s.gone.map Prod.fst).count (.connection j))
    (hself : c'.IsServed → c'.endings.length = (s'.gone.map Prod.fst).count (.connection i)) :
    s'.Serving := by
  -- One connection takes a step, and the tasks of all others stay.
  have hlookup (j : Nat) : s'.courses[j]? = if i = j then some c' else s.courses[j]? := by
    rw [hcourses, getElem?_set_of_some hc]
  obtain ⟨hstaged, hdecided⟩ := h.staged c (List.mem_of_getElem? hc)
  constructor
  · intro x hx
    rw [hcourses] at hx
    rcases List.mem_or_eq_of_mem_set hx with hx | rfl
    · exact h.staged x hx
    · exact ⟨hstaged.step hstep, hdecided.step hstep⟩
  · intro task hmem
    have hready := h.ready task (hhanded ▸ hmem)
    cases task with
    | listener k => trivial
    | connection j =>
      obtain ⟨x, hx, hserved⟩ := hready
      by_cases hj : i = j
      · subst hj
        obtain rfl : c = x := Option.some.inj (hc.symm.trans hx)
        exact ⟨c', by rw [hlookup, if_pos rfl], hstep.decided rfl hserved⟩
      · exact ⟨x, by rw [hlookup, if_neg hj, hx], hserved⟩
  · intro j x hx hserved
    rw [hlookup] at hx
    by_cases hj : i = j
    · subst hj
      rw [if_pos rfl] at hx
      obtain rfl := Option.some.inj hx
      exact hself hserved
    · rw [if_neg hj] at hx
      rw [hothers j (Ne.symm hj)]
      exact h.ended j x hx hserved

theorem Serving.connection (h : s.Serving) (hp : s.Placed) {i : Nat} {c c' : Course}
    (hc : s.courses[i]? = some c) (hstep : c.Step c')
    (hkept : c.IsServed → c'.endings.length = c.endings.length) :
    Serving { s with courses := s.courses.set i c' } := by
  refine h.replace hc hstep rfl rfl (fun _ _ => rfl) fun hserved => ?_
  by_cases hbefore : c.IsServed
  · exact (hkept hbefore).trans (h.ended i c hc hbefore)
  · -- A connection that is not taken in has no task.
    obtain ⟨hstaged, hdecided⟩ := h.staged c (List.mem_of_getElem? hc)
    have hnone : Task.connection i ∉ s.gone.map Prod.fst := by
      intro hmem
      obtain ⟨x, hx, hx'⟩ := h.ready _ (hp.mem_handed_of_gone hmem)
      obtain rfl : c = x := Option.some.inj (hc.symm.trans hx)
      exact hbefore hx'
    show _ = (s.gone.map Prod.fst).count (.connection i)
    rw [hstep.endings_of_decided hdecided hstaged rfl hbefore hserved, List.count_eq_zero.mpr hnone]
    rfl

theorem modify_eq_set {l : List Course} {i : Nat} {c : Course} (h : l[i]? = some c)
    (f : Course → Course) : l.modify i f = l.set i (f c) := by
  obtain ⟨hi, -⟩ := List.getElem?_eq_some_iff.mp h
  refine List.ext_getElem? fun j => ?_
  by_cases hj : i = j
  · subst hj
    rw [List.getElem?_modify_eq, List.getElem?_set_self hi, h]
    rfl
  · rw [List.getElem?_modify_ne _ _ hj, List.getElem?_set_ne hj]

theorem Serving.leave (h : s.Serving) {task : Task} (hmem : task ∈ s.handed)
    (hnew : task ∉ s.gone.map Prod.fst) (exit : Exit) : (s.leave task exit).Serving := by
  cases task with
  | listener k =>
    refine ⟨h.staged, h.ready, fun i c hc hserved => ?_⟩
    show c.endings.length = ((s.gone ++ [(Task.listener k, exit)]).map Prod.fst).count _
    rw [List.map_append, List.count_append, ← h.ended i c hc hserved]
    rfl
  | connection i =>
    obtain ⟨c, hc, hserved⟩ := h.ready _ hmem
    obtain ⟨hstaged, -⟩ := h.staged c (List.mem_of_getElem? hc)
    -- The task has not been over yet, so its connection has not ended.
    have hnone : c.endings = [] := by
      refine List.eq_nil_of_length_eq_zero ?_
      rw [h.ended i c hc hserved]
      exact List.count_eq_zero.mpr hnew
    have hcount (j : Nat) :
        ((s.leave (.connection i) exit).gone.map Prod.fst).count (.connection j) =
          (s.gone.map Prod.fst).count (.connection j) + if i = j then 1 else 0 := by
      show ((s.gone ++ [(Task.connection i, exit)]).map Prod.fst).count _ = _
      rw [List.map_append, List.count_append, List.map_singleton, List.count_singleton]
      by_cases hj : i = j
      · rw [if_pos hj, hj, if_pos (beq_self_eq_true _)]
      · rw [if_neg hj, if_neg]
        simpa using hj
    refine h.replace hc (.finish hserved (.inl rfl)) (modify_eq_set hc _) rfl ?_ fun _ => ?_
    · intro j hj
      rw [hcount, if_neg (Ne.symm hj), Nat.add_zero]
    · rw [hcount, if_pos rfl, List.count_eq_zero.mpr hnew,
        hstaged.finish_eq hserved rfl hnone exit.reason]
      rfl

theorem Serving.step (h : s.Serving) (hp : s.Placed) (hstep : s.Step s') : s'.Serving := by
  cases hstep with
  | create =>
    refine ⟨?_, ?_, ?_⟩
    · intro c hc
      rcases List.mem_append.mp hc with hc | hc
      · exact h.staged c hc
      · rw [List.mem_singleton.mp hc]
        exact ⟨Course.isStaged_new, fun hne => absurd rfl hne⟩
    · intro task hmem
      have hready := h.ready task hmem
      cases task with
      | listener k => trivial
      | connection i =>
        obtain ⟨c, hc, hserved⟩ := hready
        obtain ⟨hi, -⟩ := List.getElem?_eq_some_iff.mp hc
        exact ⟨c, (List.getElem?_append_left hi).trans hc, hserved⟩
    · intro i c hc hserved
      exact h.ended i c (getElem?_of_append_new hc hserved) hserved
  | connection hc hcourse hkept => exact h.connection hp hc hcourse hkept
  | @spawn task rejected pool hready hnew hspawns =>
    refine ⟨h.staged, ?_, h.ended⟩
    intro task' hmem
    rcases List.mem_append.mp hmem with hmem | hmem
    · exact h.ready task' hmem
    · rw [List.mem_singleton.mp hmem]
      exact hready
  | start hstarts => exact ⟨h.staged, h.ready, h.ended⟩
  | stop => exact ⟨h.staged, h.ready, h.ended⟩
  | leave hmem exit =>
    obtain ⟨hhanded, hnew⟩ := hp.of_mem (List.mem_append_left _ hmem)
    have hleft := h.leave hhanded hnew exit
    exact ⟨hleft.staged, hleft.ready, hleft.ended⟩
  | retire hmem exit =>
    obtain ⟨hhanded, hnew⟩ :=
      hp.of_mem (List.mem_append_right _ (List.mem_append_left _ hmem))
    have hleft := h.leave hhanded hnew exit
    exact ⟨hleft.staged, hleft.ready, hleft.ended⟩
  | drop hmem =>
    obtain ⟨hhanded, hnew⟩ :=
      hp.of_mem (List.mem_append_right _ (List.mem_append_right _ hmem))
    have hleft := h.leave hhanded hnew .dropped
    exact ⟨hleft.staged, hleft.ready, hleft.ended⟩

theorem Reachable.serving (h : s.Reachable) : s.Serving := by
  induction h with
  | refl =>
    exact ⟨fun c hc => (List.not_mem_nil hc).elim, fun task hmem => (List.not_mem_nil hmem).elim,
      fun i c hc => by cases hc⟩
  | tail hrun hstep ih => exact ih.step (Reachable.placed hrun) hstep

/-! ### A pool that was stopped -/

theorem Step.isStopped (hstep : s.Step s') (h : s.pool.isStopped = true) :
    s'.pool.isStopped = true := by
  cases hstep with
  | spawn hready hnew hspawns =>
    cases hspawns with
    | refused hstopped => exact h
    | waits hopen hnone => exact h
    | given hopen hgives => exact h
  | start hstarts =>
    cases hstarts with
    | refused hrefused => exact h
    | started hopen hcount hout => exact h
  | stop => rfl
  | create | connection | leave | retire | drop => exact h

/-- The task was rejected, and is or was dropped by the thread that spawned it. -/
def Refused (s : Crew) (task : Task) : Prop := task ∈ s.dropping ∨ (task, .dropped) ∈ s.gone

theorem Refused.step {task : Task} (h : s.Refused task) (hstep : s.Step s') : s'.Refused task := by
  cases hstep with
  | create | connection | start => exact h
  | spawn hready hnew hspawns => exact h.imp_left (List.mem_append_left _)
  | stop => exact h.imp_left (List.mem_append_left _)
  | leave hmem exit => exact h.imp_right (List.mem_append_left _)
  | retire hmem exit => exact h.imp_right (List.mem_append_left _)
  | @drop task' hmem =>
    rcases h with h | h
    · by_cases heq : task = task'
      · exact .inr (heq ▸ List.mem_append_right _ (List.mem_singleton_self _))
      · exact .inl (List.mem_filter.mpr ⟨h, bne_iff_ne.mpr heq⟩)
    · exact .inr (List.mem_append_left _ h)

theorem Serving.ends (h : s.Serving) {i : Nat} (hmem : Task.connection i ∈ s.handed) :
    ∃ c, s.courses[i]? = some c ∧ ((∀ exit, (.connection i, exit) ∉ s.gone) → c.endings = []) ∧
      ∀ exit, (.connection i, exit) ∈ s.gone → c.life.state = .closed ∧
        ∃ e, c.endings = [e] ∧ c.life.reason = some e.reason ∧ c.notified = e.notice := by
  obtain ⟨c, hc, hserved⟩ := h.ready _ hmem
  obtain ⟨hstaged, -⟩ := h.staged c (List.mem_of_getElem? hc)
  have hended := h.ended i c hc hserved
  refine ⟨c, hc, ?_, ?_⟩
  · intro hnone
    have hnot : Task.connection i ∉ s.gone.map Prod.fst := by
      intro hgone
      obtain ⟨⟨task, exit⟩, hx, heq⟩ := List.mem_map.mp hgone
      obtain rfl : task = .connection i := heq
      exact hnone exit hx
    rw [List.count_eq_zero.mpr hnot] at hended
    exact List.eq_nil_of_length_eq_zero hended
  · intro exit hgone
    have hpos : 0 < c.endings.length := by
      rw [hended]
      exact List.count_pos_iff.mpr (List.mem_map_of_mem hgone)
    obtain ⟨e, hendings⟩ := List.length_eq_one_iff.mp
      (Nat.le_antisymm hstaged.endings_length hpos)
    obtain ⟨hnotified, hclosed, hreason⟩ :=
      hstaged.of_ending (hendings ▸ List.mem_singleton_self e)
    exact ⟨hclosed, e, hendings, hreason, hnotified⟩

end Crew

end CallWire
