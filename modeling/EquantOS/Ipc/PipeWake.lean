import EquantOS.Ipc.Pipe

/-!
# Waking the tasks that wait for a pipe

A pipe has one slot for a blocked reader and one for a blocked writer.  A second task that waits in
the same operation takes the slot of the first, which is then found by nobody.  As long as tasks wait
one at a time, each of them is woken when it can go on.
-/

open Function

namespace Pipe

/-- The task waits in `pipe_read_op`. -/
def Op.IsRead : Op → Prop
  | .read _ => True
  | _ => False

/-- The task waits in `pipe_write_op`. -/
def Op.IsWrite : Op → Prop
  | .write _ _ => True
  | _ => False

namespace Sys

/-- A waiting task that could go on, or another one that waits in the same operation, is runnable or
is in the slot of the pipe. -/
structure NoLostWake (s : Sys) : Prop where
  reader (t : ℕ) : (s.op t).IsRead → 0 < s.pipe.count ∨ s.pipe.writeClosed →
    ∃ t', (s.op t').IsRead ∧ (s.runnable t' ∨ s.pipe.blockedReader = some t')
  writer (t : ℕ) : (s.op t).IsWrite → s.pipe.count < pipeBufSize ∨ s.pipe.readClosed →
    ∃ t', (s.op t').IsWrite ∧ (s.runnable t' ∨ s.pipe.blockedWriter = some t')

/-- No task stays blocked that could go on. -/
structure NoneStuck (s : Sys) : Prop where
  reader (t : ℕ) : (s.op t).IsRead → 0 < s.pipe.count ∨ s.pipe.writeClosed → s.runnable t
  writer (t : ℕ) : (s.op t).IsWrite → s.pipe.count < pipeBufSize ∨ s.pipe.readClosed → s.runnable t

/-- A call that has to wait is made only while no other task waits in the same operation. -/
def Alone (s : Sys) : Act → Prop
  | .read task _ => s.pipe.count = 0 → s.pipe.writeClosed = false →
      ∀ t, (s.op t).IsRead → t = task
  | .write task data => pipeBufSize < s.pipe.count + data.length → ∀ t, (s.op t).IsWrite → t = task
  | _ => True

/-- Every step of the run is made alone. -/
def AloneRun : Sys → List Act → Prop
  | _, [] => True
  | s, a :: acts => s.Alone a ∧ AloneRun (s.step a) acts

/-- The readers: at most one waits, and it is runnable or in the slot of an empty pipe. -/
structure Readers (s : Sys) : Prop where
  unique (t t' : ℕ) : (s.op t).IsRead → (s.op t').IsRead → t = t'
  found (t : ℕ) : (s.op t).IsRead → s.runnable t ∨
    (s.pipe.blockedReader = some t ∧ s.pipe.count = 0 ∧ s.pipe.writeClosed = false)

/-- The writers: at most one waits, and it is runnable or in the slot of a full pipe. -/
structure Writers (s : Sys) : Prop where
  unique (t t' : ℕ) : (s.op t).IsWrite → (s.op t').IsWrite → t = t'
  found (t : ℕ) : (s.op t).IsWrite → s.runnable t ∨
    (s.pipe.blockedWriter = some t ∧ pipeBufSize ≤ s.pipe.count ∧ s.pipe.readClosed = false)

structure Waiting (s : Sys) : Prop where
  readers : Readers s
  writers : Writers s

variable {s : Sys}

lemma runnable_unblock (s : Sys) (task : Option ℕ) (t : ℕ) :
  (s.unblock task).runnable t = (s.runnable t || task == some t)
  := by
  cases task with
  | none => simp [unblock]
  | some t' =>
    by_cases h : t = t'
    · simp [unblock, h]
    · simp [unblock, h, Ne.symm h]

@[simp]
lemma op_unblock (s : Sys) (task : Option ℕ) : (s.unblock task).op = s.op
  := by
  cases task with
  | none => rfl
  | some t => rfl

@[simp]
lemma pipe_unblock (s : Sys) (task : Option ℕ) : (s.unblock task).pipe = s.pipe
  := by
  cases task with
  | none => rfl
  | some t => rfl

/-- Tasks become runnable and nothing else changes. -/
lemma waiting_unblock (h : Waiting s) (task : Option ℕ) : Waiting (s.unblock task)
  := by
  refine ⟨⟨?_, fun t ht => ?_⟩, ⟨?_, fun t ht => ?_⟩⟩
  · simpa using h.readers.unique
  · rw [runnable_unblock, pipe_unblock]
    rw [op_unblock] at ht
    exact (h.readers.found t ht).imp_left fun hr => by simp [hr]
  · simpa using h.writers.unique
  · rw [runnable_unblock, pipe_unblock]
    rw [op_unblock] at ht
    exact (h.writers.found t ht).imp_left fun hr => by simp [hr]

variable {s' : Sys} {size task total : ℕ} {data : List UInt8}

/-- When the readers are woken the pipe may hold bytes or have lost its writers. -/
lemma waiting_wakeReader (h : Readers s) (hw : Writers s') (hop : s'.op = s.op)
    (hrun : s'.runnable = s.runnable) (hslot : s'.pipe.blockedReader = s.pipe.blockedReader) :
  Waiting s'.wakeReader
  := by
  refine ⟨⟨?_, fun t ht => .inl ?_⟩, ⟨?_, fun t ht => ?_⟩⟩
  · simpa [wakeReader, hop] using h.unique
  · simp only [wakeReader, op_unblock, hop] at ht
    simp only [wakeReader, runnable_unblock, hslot, hrun]
    rcases h.found t ht with hr | ⟨hs, -⟩
    · simp [hr]
    · simp [hs]
  · simpa [wakeReader] using hw.unique
  · simp only [wakeReader, op_unblock] at ht
    simp only [wakeReader, runnable_unblock, pipe_unblock]
    exact (hw.found t ht).imp_left fun hr => by simp [hr]

/-- When the writers are woken the pipe may have room or have lost its readers. -/
lemma waiting_wakeWriter (h : Writers s) (hr : Readers s') (hop : s'.op = s.op)
    (hrun : s'.runnable = s.runnable) (hslot : s'.pipe.blockedWriter = s.pipe.blockedWriter) :
  Waiting s'.wakeWriter
  := by
  refine ⟨⟨?_, fun t ht => ?_⟩, ⟨?_, fun t ht => .inl ?_⟩⟩
  · simpa [wakeWriter] using hr.unique
  · simp only [wakeWriter, op_unblock] at ht
    simp only [wakeWriter, runnable_unblock, pipe_unblock]
    exact (hr.found t ht).imp_left fun hrun => by simp [hrun]
  · simpa [wakeWriter, hop] using h.unique
  · simp only [wakeWriter, op_unblock, hop] at ht
    simp only [wakeWriter, runnable_unblock, hslot, hrun]
    rcases h.found t ht with hrun | ⟨hs, -⟩
    · simp [hrun]
    · simp [hs]

/-- A call of the kind `Q` is not the one that was entered. -/
lemma of_update_op {Q : Op → Prop} {t : ℕ} {o : Op} (ho : ¬ Q o) (ht : Q (update s.op task o t)) :
  t ≠ task ∧ Q (s.op t)
  := by
  by_cases htask : t = task
  · subst htask
    rw [update_self] at ht
    exact absurd ht ho
  · rw [update_of_ne htask] at ht
    exact ⟨htask, ht⟩

/-- A task leaves its call. -/
lemma waiting_ret (h : Waiting s) (task : ℕ) (r : Return) : Waiting (s.ret task r)
  := by
  have hop {t : ℕ} (ht : (update s.op task .idle t).IsRead) := (of_update_op id ht).2
  have hop' {t : ℕ} (ht : (update s.op task .idle t).IsWrite) := (of_update_op id ht).2
  exact ⟨⟨fun t t' ht ht' => h.readers.unique t t' (hop ht) (hop ht'),
      fun t ht => h.readers.found t (hop ht)⟩,
    ⟨fun t t' ht ht' => h.writers.unique t t' (hop' ht) (hop' ht'),
      fun t ht => h.writers.found t (hop' ht)⟩⟩

/-- A call of the kind `Q` is the one that was entered, if only its task was in such calls. -/
lemma eq_of_update_op {Q : Op → Prop} {t : ℕ} {o : Op} (halone : ∀ t, Q (s.op t) → t = task)
    (ht : Q (update s.op task o t)) :
  t = task
  := by
  by_contra htask
  rw [update_of_ne htask] at ht
  exact htask (halone t ht)

/-- A reader waits for an empty pipe. -/
lemma waiting_blockReader (h : Waiting s) (hcount : s.pipe.count = 0)
    (hclosed : s.pipe.writeClosed = false) (halone : ∀ t, (s.op t).IsRead → t = task) :
  Waiting ({ s with pipe := { s.pipe with blockedReader := some task } }.block task (.read size))
  := by
  have hwrite {t : ℕ} (ht : (update s.op task (.read size) t).IsWrite) := of_update_op id ht
  refine ⟨⟨fun t t' ht ht' => ?_, fun t ht => .inr ?_⟩, ⟨fun t t' ht ht' => ?_, fun t ht => ?_⟩⟩
  · exact (eq_of_update_op halone ht).trans (eq_of_update_op halone ht').symm
  · exact ⟨by rw [eq_of_update_op halone ht]; rfl, hcount, hclosed⟩
  · exact h.writers.unique t t' (hwrite ht).2 (hwrite ht').2
  · obtain ⟨hne, ht⟩ := hwrite ht
    simp only [block, update_of_ne hne]
    exact h.writers.found t ht

/-- A writer waits for a full pipe. -/
lemma waiting_blockWriter (h : Waiting s)
    (hcount : pipeBufSize ≤ s.pipe.count) (hclosed : s.pipe.readClosed = false)
    (halone : ∀ t, (s.op t).IsWrite → t = task) :
  Waiting ({ s with pipe := { s.pipe with blockedWriter := some task } }.block task
    (.write data total))
  := by
  have hread {t : ℕ} (ht : (update s.op task (.write data total) t).IsRead) := of_update_op id ht
  refine ⟨⟨fun t t' ht ht' => ?_, fun t ht => ?_⟩, ⟨fun t t' ht ht' => ?_, fun t ht => .inr ?_⟩⟩
  · exact h.readers.unique t t' (hread ht).2 (hread ht').2
  · obtain ⟨hne, ht⟩ := hread ht
    simp only [block, update_of_ne hne]
    exact h.readers.found t ht
  · exact (eq_of_update_op halone ht).trans (eq_of_update_op halone ht').symm
  · exact ⟨by rw [eq_of_update_op halone ht]; rfl, hcount, hclosed⟩

lemma waiting_readRound (h : Waiting s)
    (halone : s.pipe.count = 0 → s.pipe.writeClosed = false → ∀ t, (s.op t).IsRead → t = task) :
  Waiting (s.readRound task size)
  := by
  unfold readRound
  split
  · next hcount =>
    split
    · exact waiting_ret h task _
    · next hclosed =>
      have hclosed : s.pipe.writeClosed = false := by simpa using hclosed
      exact waiting_blockReader h hcount hclosed (halone hcount hclosed)
  · next hcount =>
    apply waiting_ret
    refine waiting_wakeWriter h.writers ⟨h.readers.unique, fun t ht => .inl ?_⟩ rfl rfl rfl
    -- a reader that waits for a pipe with bytes is runnable
    exact (h.readers.found t ht).resolve_right fun hslot => hcount hslot.2.1

lemma waiting_writeRound {rest : List UInt8} (h : Waiting s)
    (halone : pipeBufSize < s.pipe.count + rest.length → ∀ t, (s.op t).IsWrite → t = task) :
  Waiting (writeRound task data rest total s)
  := by
  induction rest generalizing s total with
  | nil => exact waiting_ret h task _
  | cons b rest ih =>
    rw [List.length_cons] at halone
    rw [writeRound]
    split
    · next hfull =>
      split
      · exact waiting_ret h task _
      · next hclosed =>
        exact waiting_blockWriter h hfull (by simpa using hclosed) (halone (by omega))
    · next hroom =>
      have hwriters : Writers { s with
          pipe := s.pipe.withRing (s.pipe.toByteRing.putByte pipeBufSize b)
          stored := s.stored ++ [(s.callOf task, b)] } := by
        refine ⟨h.writers.unique, fun t ht => .inl ?_⟩
        exact (h.writers.found t ht).resolve_right fun hslot => hroom hslot.2.1
      apply ih (waiting_wakeReader h.readers hwriters rfl rfl rfl)
      intro hlt
      simp only [wakeReader, op_unblock, pipe_unblock, PipeBuf.withRing, ByteRing.putByte] at hlt ⊢
      exact halone (by omega)

lemma waiting_resume (h : Waiting s) (hrun : s.runnable task) :
  Waiting (s.resume task)
  := by
  unfold resume
  split
  · exact h
  · next size hop =>
    have hread : (s.op task).IsRead := by rw [hop]; trivial
    have halone : ∀ t, (s.op t).IsRead → t = task := fun t ht => h.readers.unique t task ht hread
    apply waiting_readRound
    · refine ⟨⟨h.readers.unique, fun t ht => .inl ?_⟩, ⟨h.writers.unique, h.writers.found⟩⟩
      rw [halone t ht]
      exact hrun
    · exact fun _ _ => halone
  · next data total hop =>
    have hwrite : (s.op task).IsWrite := by rw [hop]; trivial
    have halone : ∀ t, (s.op t).IsWrite → t = task := fun t ht => h.writers.unique t task ht hwrite
    apply waiting_writeRound
    · refine ⟨⟨h.readers.unique, h.readers.found⟩, ⟨h.writers.unique, fun t ht => .inl ?_⟩⟩
      rw [halone t ht]
      exact hrun
    · exact fun _ => halone

lemma waiting_step (h : Waiting s) {a : Act} (ha : s.Alone a) : Waiting (s.step a)
  := by
  cases a with
  | read task size =>
    rw [step]
    split
    · exact h
    next hop =>
      split
      · exact waiting_ret h task _
      · exact waiting_readRound h ha
  | write task data =>
    rw [step]
    split
    · exact h
    next hop =>
      split
      · exact waiting_ret h task _
      · split
        · exact waiting_ret h task _
        · exact waiting_writeRound h ha
  | resume task =>
    rw [step]
    split
    · next hrun => exact waiting_resume h hrun
    · exact h
  | closeRead =>
    exact waiting_wakeWriter h.writers ⟨h.readers.unique, h.readers.found⟩ rfl rfl rfl
  | closeWrite =>
    exact waiting_wakeReader h.readers ⟨h.writers.unique, h.writers.found⟩ rfl rfl rfl
  | wake task => exact waiting_unblock h (some task)

lemma Waiting.noneStuck (h : Waiting s) : NoneStuck s
  where
  reader t ht hgo := (h.readers.found t ht).resolve_right fun ⟨_, hcount, hclosed⟩ => by
    rw [hcount, hclosed] at hgo
    exact hgo.elim (Nat.lt_irrefl 0) nofun
  writer t ht hgo := (h.writers.found t ht).resolve_right fun ⟨_, hcount, hclosed⟩ => by
    rw [hclosed] at hgo
    exact hgo.elim (by omega) nofun

lemma NoneStuck.noLostWake (h : NoneStuck s) : NoLostWake s
  :=
  ⟨fun t ht hgo => ⟨t, ht, .inl (h.reader t ht hgo)⟩, fun t ht hgo => ⟨t, ht, .inl (h.writer t ht hgo)⟩⟩

/-- When tasks wait one at a time, no wake-up is lost. -/
theorem noLostWake_run (acts : List Act) (h : AloneRun create acts) :
  NoLostWake (create.run acts) ∧ NoneStuck (create.run acts)
  := by
  suffices hw : Waiting (create.run acts) from ⟨hw.noneStuck.noLostWake, hw.noneStuck⟩
  have hinit : Waiting create := ⟨⟨nofun, nofun⟩, ⟨nofun, nofun⟩⟩
  generalize create = s at h hinit ⊢
  induction acts generalizing s with
  | nil => exact hinit
  | cons a acts ih => exact ih (s.step a) h.2 (waiting_step hinit h.1)

/-- A reader that waits alone is woken by the first byte. -/
theorem noLostWake_run_reader :
  ((create.run [.read 0 1, .write 1 [7]]).op 0 = .read 1 ∧
      (create.run [.read 0 1, .write 1 [7]]).pipe.count = 1) ∧
    NoLostWake (create.run [.read 0 1, .write 1 [7]]) ∧
    NoneStuck (create.run [.read 0 1, .write 1 [7]])
  := by
  refine ⟨⟨rfl, rfl⟩, noLostWake_run _ ⟨?_, ?_, trivial⟩⟩
  · exact fun _ _ t ht => ht.elim
  · exact fun hlt => absurd hlt (by decide)

/-- Two readers wait, and the slot has the second.  It takes the first byte; the second byte wakes
nobody, and the first reader is left. -/
theorem lostWake :
  ¬ NoLostWake (create.run [.read 0 1, .read 1 1, .write 2 [7], .resume 1, .write 2 [8]])
  := by
  intro h
  obtain ⟨t, ht, hfound⟩ := h.reader 0 trivial (.inl (by decide))
  have hzero : t = 0 := by
    match t, ht with
    | 0, _ => rfl
    | 1, ht => exact ht.elim
    | 2, ht => exact ht.elim
    | t + 3, ht => exact ht.elim
  subst hzero
  exact hfound.elim nofun nofun

end Sys

end Pipe
