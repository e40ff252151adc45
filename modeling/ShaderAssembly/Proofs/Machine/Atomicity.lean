import ShaderAssembly.Machine.Run

namespace ShaderAssembly.Action

variable {a : Action α} {k : α → Action β}

/-- However the action ends, the machine is as it was. -/
def ReadsOnly (a : Action α) : Prop := ∀ m : Machine, (m.attempt a).1 = m

/-- The action ends without a fault on every machine. -/
def Total (a : Action α) : Prop := ∀ m : Machine, ∃ v, (m.attempt a).2 = .ok v

/-- If the action ends in a fault, the machine is as it was. -/
def Atomic (a : Action α) : Prop :=
  ∀ (m : Machine) (f : Fault), (m.attempt a).2 = .error f → (m.attempt a).1 = m

theorem ReadsOnly.atomic (ha : ReadsOnly a) : Atomic a := fun m _ _ => ha m

theorem Total.atomic (ha : Total a) : Atomic a := by
  intro m f hfault
  obtain ⟨v, hv⟩ := ha m
  rw [hv] at hfault
  cases hfault

theorem ReadsOnly.bind (ha : ReadsOnly a) (hk : ∀ v, ReadsOnly (k v)) : ReadsOnly (a >>= k) := by
  intro m
  have hm := ha m
  rw [Machine.attempt_bind]
  split
  next left v hattempt =>
    rw [hattempt] at hm
    rw [← hm]
    exact hk v left
  next left f hattempt =>
    rw [hattempt] at hm
    exact hm

theorem Total.bind (ha : Total a) (hk : ∀ v, Total (k v)) : Total (a >>= k) := by
  intro m
  obtain ⟨v, hv⟩ := ha m
  rw [Machine.attempt_bind, ← Prod.eta (m.attempt a), hv]
  exact hk v (m.attempt a).1

/-- Checks that come before an atomic action leave it atomic. -/
theorem Atomic.bind_of_readsOnly (ha : ReadsOnly a) (hk : ∀ v, Atomic (k v)) :
    Atomic (a >>= k) := by
  intro m f hfault
  have hm := ha m
  rw [Machine.attempt_bind] at hfault ⊢
  split at hfault
  next left v hattempt =>
    rw [hattempt] at hm
    rw [← hm]
    exact hk v left f hfault
  next left g hattempt =>
    rw [hattempt] at hm
    exact hm

/-- What comes after an atomic action leaves it atomic if it cannot fail. -/
theorem Atomic.bind_of_total (ha : Atomic a) (hk : ∀ v, Total (k v)) : Atomic (a >>= k) := by
  intro m f hfault
  rw [Machine.attempt_bind] at hfault ⊢
  split at hfault
  next left v hattempt =>
    obtain ⟨w, hw⟩ := hk v left
    rw [hw] at hfault
    cases hfault
  next left g hattempt =>
    have hm := ha m g (by rw [hattempt])
    rw [hattempt] at hm
    exact hm

theorem readsOnly_pure (v : α) : ReadsOnly (pure v) := fun _ => rfl

theorem readsOnly_throw (f : Fault) : ReadsOnly (throw f : Action α) := fun _ => rfl

theorem readsOnly_get : ReadsOnly get := fun _ => rfl

theorem readsOnly_ofExcept (x : Except Fault α) : ReadsOnly (ofExcept x : Action α) := by
  intro m
  rw [Machine.attempt_ofExcept]

private theorem readsOnly_mapM {f : α → Action β} (hf : ∀ a, ReadsOnly (f a)) (as : List α) :
    ReadsOnly (as.mapM f) := by
  induction as with
  | nil => exact readsOnly_pure []
  | cons a as ih =>
    rw [List.mapM_cons]
    exact (hf a).bind fun b => ih.bind fun bs => readsOnly_pure (b :: bs)

theorem total_pure (v : α) : Total (pure v) := fun _ => ⟨v, rfl⟩

theorem total_modify (f : Machine → Machine) : Total (modify f) := fun _ => ⟨(), rfl⟩

private theorem total_forM {f : α → Action PUnit} (hf : ∀ a, Total (f a)) (as : List α) :
    Total (as.forM f) := by
  induction as with
  | nil => exact total_pure ()
  | cons a as ih =>
    rw [List.forM_eq_forM, List.forM_cons]
    exact (hf a).bind fun _ => ih

theorem readsOnly_read (fetch : Except Fault Fetch) : ReadsOnly (read fetch) :=
  (readsOnly_ofExcept fetch).bind fun _ => readsOnly_get.bind fun _ => readsOnly_pure _

theorem readsOnly_operand (i : Instruction) (n : Nat) : ReadsOnly (operand i n) :=
  readsOnly_read (i.fetch n)

theorem readsOnly_current (i : Instruction) : ReadsOnly (current i) :=
  (readsOnly_ofExcept i.target).bind fun _ => readsOnly_get.bind fun _ => readsOnly_pure _

theorem readsOnly_matrix (i : Instruction) (rows columns : Nat) :
    ReadsOnly (matrix i rows columns) := by
  unfold matrix
  refine (readsOnly_operand i 0).bind fun vector => ?_
  refine (readsOnly_ofExcept (i.operand 1)).bind fun base => ?_
  refine (readsOnly_current i).bind fun old => ?_
  refine (readsOnly_mapM (fun k => ?_) _).bind fun products => readsOnly_pure _
  exact (readsOnly_read (i.matrixLine base k)).bind fun line => readsOnly_pure _

/-- The value of an instruction is computed before anything is written, the products with the lines
of a matrix included. -/
theorem readsOnly_value (i : Instruction) : ReadsOnly (value i) := by
  have hoperand := readsOnly_operand i
  unfold value
  split
  · exact (hoperand 0).bind fun _ => readsOnly_pure _
  · exact (hoperand 0).bind fun _ => (hoperand 1).bind fun _ => readsOnly_pure _
  · exact (hoperand 0).bind fun _ => (hoperand 1).bind fun _ => (hoperand 2).bind fun _ =>
      readsOnly_pure _
  · exact (hoperand 0).bind fun _ => (readsOnly_current i).bind fun _ => readsOnly_pure _
  · exact (hoperand 0).bind fun _ => (hoperand 1).bind fun _ => (readsOnly_current i).bind fun _ =>
      readsOnly_pure _
  · exact readsOnly_matrix i _ _
  · exact readsOnly_throw _

/-- The literals of a definition are looked up before the constant is defined. -/
theorem atomic_define (i : Instruction) : Atomic (define i) := by
  unfold define
  refine .bind_of_readsOnly (readsOnly_ofExcept i.target) fun d => ?_
  split
  · split
    · exact (total_modify _).atomic
    · exact (readsOnly_throw _).atomic
  · exact (readsOnly_throw _).atomic

/-- The result shift is looked up before the first lane is written, and the writes cannot fail. -/
theorem atomic_write (d : Destination) (result : ResultModifier) (v : Value) :
    Atomic (write d result v) := by
  unfold write
  refine .bind_of_readsOnly (readsOnly_ofExcept _) fun factor => Total.atomic ?_
  exact (total_modify _).bind fun _ => total_forM (fun c => total_modify _) d.mask.components

/-- An instruction finds all of its faults before it changes anything. -/
theorem atomic_step (i : Instruction) : Atomic (step i) := by
  have hdefine : Atomic (do define i; return Flow.next) :=
    (atomic_define i).bind_of_total fun _ => total_pure _
  unfold step
  split
  all_goals first | exact (readsOnly_pure _).atomic | exact hdefine | skip
  refine .bind_of_readsOnly (readsOnly_value i) fun v => ?_
  refine .bind_of_readsOnly (readsOnly_ofExcept i.target) fun d => ?_
  exact (atomic_write d i.result v).bind_of_total fun _ => total_pure _

end ShaderAssembly.Action

namespace ShaderAssembly.Machine

variable {m : Machine} {i : Instruction} {f : Fault}

theorem step_of_fault (hstep : (m.step i).2 = .error f) : m.step i = (m, .error f) :=
  Prod.ext (Action.atomic_step i m f hstep) hstep

theorem define_of_fault (hdefine : (m.attempt (Action.define i)).2 = .error f) :
    m.attempt (Action.define i) = (m, .error f) :=
  Prod.ext (Action.atomic_define i m f hdefine) hdefine

end ShaderAssembly.Machine
