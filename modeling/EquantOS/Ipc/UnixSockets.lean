import EquantOS.Ipc.UnixStream

/-!
# The pointers of UNIX sockets

The sockets of `ipc/af_unix.c` with the three kinds of pointers to them: the peer of a socket, the
backlog of a listener, and the node that `unix_socket_bind` leaves in the directory tree.  The calls of
any number of processes run over them, with the handlers of `proc/syscall.c` and their failures.

A socket is named by the number of its allocation, so that the memory of a freed socket is no socket
that is allocated later.  A task that waits in a call runs on at any time.
-/

open Function List

namespace UnixSockets

open Function

open UnixStream (sockBufSize)

/-- `unix_sock_state_t`. -/
inductive State where
  | created
  | bound
  | listening
  | connected
  | closed
deriving DecidableEq

/-- `unix_socket_t`, without the tasks that wait: they may run on at any time. -/
structure Socket where
  state : State
  type : ℕ
  ring : ByteRing
  peer : Option ℕ
  backlog : List ℕ
  backlogMax : ℤ
  refCount : ℤ
  peerClosed : Bool

/-- A socket as `unix_socket_create` makes it. -/
def Socket.new (type : ℕ) : Socket := ⟨.created, type, .empty, none, [], 0, 1, false⟩

/-- An entry of a table of descriptors.  The node of a socket belongs to its descriptor alone. -/
inductive Slot where
  | free
  | other
  | sock (p : ℕ)
deriving DecidableEq

/-- The call that a task waits in.  A write keeps the peer that it found first. -/
inductive Op where
  | idle
  | accept (pid server : ℕ)
  | read (sock size : ℕ)
  | write (sock dest : ℕ) (rest : List UInt8) (written : ℕ)
deriving DecidableEq

inductive Result where
  | ok
  | fd (n : ℕ)
  | bytes (n : ℕ)
  | blocked
  | ebadf
  | enotsock
  | einval
  | enoent
  | eio
  | enomem
  | emfile
  | eisconn
  | econnrefused
  | econnaborted
  | eagain
  | epipe
deriving DecidableEq

/-- A place in the directory tree. -/
abbrev Path := List UInt8

/-- The sockets with their memory, whether they are allocated, the sockets of the bound nodes, the
tables of descriptors of the processes, and what the tasks wait in. -/
structure Sys where
  mem : ℕ → Socket
  live : ℕ → Bool
  next : ℕ
  bound : Path → Option ℕ
  files : ℕ → ℕ → Slot
  op : ℕ → Op

/-- The calls of the processes.  The flags say which of the allocations succeed, and whether the
directory of a path that is bound is found. -/
inductive Act where
  | socket (pid type : ℕ) (sockOk nodeOk : Bool)
  | socketpair (pid type : ℕ) (ok₁ ok₂ nodesOk : Bool)
  | bind (pid fd : ℕ) (path : Path) (dirOk nodeOk : Bool)
  | listen (pid fd : ℕ) (backlog : ℤ)
  | connect (pid fd : ℕ) (path : Path) (sockOk : Bool)
  | accept (task pid fd : ℕ) (nonblock nodeOk : Bool)
  | read (task pid fd size : ℕ) (nonblock : Bool)
  | write (task pid fd : ℕ) (data : List UInt8) (nonblock : Bool)
  | resume (task : ℕ) (nodeOk : Bool)
  | unlink (path : Path)
  | close (pid fd : ℕ)

def maxOpenFiles : ℕ := 128

/-- `UNIX_BACKLOG_MAX`. -/
def backlogLimit : ℤ := 16

namespace Sys

/-- There are no sockets.  The descriptors of `other` are in use for other files. -/
def boot (other : ℕ → ℕ → Bool) : Sys where
  mem _ := .new 0
  live _ := false
  next := 0
  bound _ := none
  files pid fd := if other pid fd then .other else .free
  op _ := .idle

def modify (s : Sys) (p : ℕ) (f : Socket → Socket) : Sys :=
  { s with mem := update s.mem p (f (s.mem p)) }

/-- `unix_socket_create`; the new socket is `s.next`. -/
def create (s : Sys) (type : ℕ) : Sys :=
  { s with
    mem := update s.mem s.next (.new type)
    live := update s.live s.next true
    next := s.next + 1 }

/-- The two sockets are connected with each other. -/
def link (s : Sys) (p q : ℕ) : Sys :=
  (s.modify p fun k => { k with peer := some q, state := .connected }).modify q
    fun k => { k with peer := some p, state := .connected }

def unixSocketClose (s : Sys) (p : ℕ) : Sys :=
  let s := s.modify p fun k => { k with state := .closed, peerClosed := true }
  let s := match (s.mem p).peer with
    | none => s
    | some q => s.modify q fun k => { k with peerClosed := true }
  let s := s.modify p fun k => { k with refCount := k.refCount - 1 }
  if (s.mem p).refCount ≤ 0 then { s with live := update s.live p false } else s

def setFile (s : Sys) (pid fd : ℕ) (slot : Slot) : Sys :=
  { s with files := update s.files pid (update (s.files pid) fd slot) }

/-- The descriptor that `alloc_fd` takes. -/
def allocFd (s : Sys) (pid : ℕ) : Option ℕ :=
  (List.range' 3 (maxOpenFiles - 3)).find? fun fd => s.files pid fd = .free

/-- `sys_close_handler`, on a node of one descriptor. -/
def sysClose (s : Sys) (pid fd : ℕ) : Sys × Result :=
  if maxOpenFiles ≤ fd then (s, .ebadf)
  else match s.files pid fd with
    | .free => (s, .ebadf)
    | .other => (s.setFile pid fd .free, .ok)
    | .sock p => ((s.setFile pid fd .free).unixSocketClose p, .ok)

/-- `sys_socket_handler` for `AF_UNIX`.  Without a descriptor the socket stays. -/
def sysSocket (s : Sys) (pid type : ℕ) (sockOk nodeOk : Bool) : Sys × Result :=
  if !sockOk then (s, .enomem)
  else
    let p := s.next
    let s := s.create type
    if !nodeOk then (s.unixSocketClose p, .enomem)
    else match s.allocFd pid with
      | none => (s, .emfile)
      | some fd => (s.setFile pid fd (.sock p), .fd fd)

def sysSocketpair (s : Sys) (pid type : ℕ) (ok₁ ok₂ nodesOk : Bool) : Sys × Result :=
  if !ok₁ && !ok₂ then (s, .enomem)
  else if !ok₁ || !ok₂ then ((s.create type).unixSocketClose s.next, .enomem)
  else
    let p := s.next
    let q := s.next + 1
    let s := ((s.create type).create type).link p q
    if !nodesOk then ((s.unixSocketClose p).unixSocketClose q, .enomem)
    else match s.allocFd pid with
      | none => (s, .emfile)
      | some fd₁ =>
        let s := s.setFile pid fd₁ (.sock p)
        match s.allocFd pid with
        | none => ((s.sysClose pid fd₁).1, .emfile)
        | some fd₂ => (s.setFile pid fd₂ (.sock q), .ok)

/-- `unix_socket_bind`.  A node that is found at the path is removed first. -/
def unixSocketBind (s : Sys) (p : ℕ) (path : Path) (dirOk nodeOk : Bool) : Sys × Result :=
  if (s.mem p).state ≠ .created then (s, .einval)
  else
    let s := { s with bound := update s.bound path none }
    if !dirOk then (s, .enoent)
    else if !nodeOk then (s, .eio)
    else
      ({ s with bound := update s.bound path (some p) }.modify p
        fun k => { k with state := .bound }, .ok)

def unixSocketListen (s : Sys) (p : ℕ) (backlog : ℤ) : Sys × Result :=
  if (s.mem p).state ≠ .bound then (s, .einval)
  else
    let most := if backlogLimit < backlog then backlogLimit else if backlog ≤ 0 then 1 else backlog
    (s.modify p fun k => { k with backlogMax := most, backlog := [], state := .listening }, .ok)

def unixSocketConnect (s : Sys) (client : ℕ) (path : Path) (sockOk : Bool) : Sys × Result :=
  if (s.mem client).state = .connected then (s, .eisconn)
  else match s.bound path with
    | none => (s, .econnrefused)
    | some server =>
      if (s.mem server).state ≠ .listening then (s, .econnrefused)
      else if (s.mem server).backlogMax ≤ (s.mem server).backlog.length then (s, .eagain)
      else if !sockOk then (s, .enomem)
      else
        (((s.create (s.mem client).type).link client s.next).modify server
          fun k => { k with backlog := k.backlog ++ [s.next] }, .ok)

def block (s : Sys) (task : ℕ) (op : Op) : Sys := { s with op := update s.op task op }

/-- The task is out of its call. -/
def done (s : Sys) (task : ℕ) : Sys := s.block task .idle

/-- `unix_socket_accept` after its first tests, up to its wait, and the rest of `sys_accept_handler`. -/
def acceptRound (s : Sys) (task pid server : ℕ) (nonblock nodeOk : Bool) : Sys × Result :=
  match (s.mem server).backlog with
  | [] =>
    if (s.mem server).peerClosed then (s.done task, .econnaborted)
    else if nonblock then (s.done task, .eagain)
    else (s.block task (.accept pid server), .blocked)
  | accepted :: rest =>
    let s := (s.done task).modify server fun k => { k with backlog := rest }
    if !nodeOk then (s.unixSocketClose accepted, .enomem)
    else match s.allocFd pid with
      | none => (s.unixSocketClose accepted, .emfile)
      | some fd => (s.setFile pid fd (.sock accepted), .fd fd)

/-- `unix_socket_read` up to its return or its wait. -/
def readRound (s : Sys) (task p size : ℕ) (nonblock : Bool) : Sys × Result :=
  if (s.mem p).ring.count = 0 then
    if (s.mem p).peerClosed then (s.done task, .bytes 0)
    else if nonblock then (s.done task, .eagain)
    else (s.block task (.read p size), .blocked)
  else
    let toRead := min size (s.mem p).ring.count
    ((s.done task).modify p fun k => { k with ring := (k.ring.takeBytes sockBufSize toRead).2 },
      .bytes toRead)

/-- `unix_socket_write` up to its return or its wait, with the bytes that are left. -/
def writeRound (task p dest : ℕ) (nonblock : Bool) : List UInt8 → ℕ → Sys → Sys × Result
  | [], written, s => (s.done task, .bytes written)
  | b :: rest, written, s =>
    if sockBufSize ≤ (s.mem dest).ring.count then
      if (s.mem dest).peerClosed || (s.mem p).peerClosed then (s.done task, .epipe)
      else if nonblock then (s.done task, if 0 < written then .bytes written else .eagain)
      else (s.block task (.write p dest (b :: rest) written), .blocked)
    else
      writeRound task p dest nonblock rest (written + 1)
        (s.modify dest fun k => { k with ring := k.ring.putByte sockBufSize b })

/-- A task that waits runs on. -/
def resume (s : Sys) (task : ℕ) (nodeOk : Bool) : Sys × Result :=
  match s.op task with
  | .idle => (s, .ok)
  | .accept pid server => s.acceptRound task pid server false nodeOk
  | .read p size => s.readRound task p size false
  | .write p dest rest written => writeRound task p dest false rest written s

/-- A call on the socket of a descriptor. -/
def withSock (s : Sys) (pid fd : ℕ) (call : ℕ → Sys × Result) : Sys × Result :=
  if maxOpenFiles ≤ fd then (s, .ebadf)
  else match s.files pid fd with
    | .free => (s, .ebadf)
    | .other => (s, .enotsock)
    | .sock p => call p

/-- A call of a process; a task that waits makes none. -/
def call (s : Sys) : Act → Sys × Result
  | .socket pid type sockOk nodeOk => s.sysSocket pid type sockOk nodeOk
  | .socketpair pid type ok₁ ok₂ nodesOk => s.sysSocketpair pid type ok₁ ok₂ nodesOk
  | .bind pid fd path dirOk nodeOk =>
    s.withSock pid fd fun p => s.unixSocketBind p path dirOk nodeOk
  | .listen pid fd backlog => s.withSock pid fd fun p => s.unixSocketListen p backlog
  | .connect pid fd path sockOk => s.withSock pid fd fun p => s.unixSocketConnect p path sockOk
  | .accept task pid fd nonblock nodeOk =>
    if s.op task ≠ .idle then (s, .blocked)
    else s.withSock pid fd fun p =>
      if (s.mem p).state ≠ .listening then (s, .einval)
      else s.acceptRound task pid p nonblock nodeOk
  | .read task pid fd size nonblock =>
    if s.op task ≠ .idle then (s, .blocked)
    else s.withSock pid fd fun p =>
      if size = 0 then (s, .bytes 0) else s.readRound task p size nonblock
  | .write task pid fd data nonblock =>
    if s.op task ≠ .idle then (s, .blocked)
    else s.withSock pid fd fun p =>
      if data = [] then (s, .bytes 0)
      else match (s.mem p).peer with
        | none => (s, .epipe)
        | some dest =>
          if (s.mem p).peerClosed then (s, .epipe) else writeRound task p dest nonblock data 0 s
  | .resume task nodeOk => s.resume task nodeOk
  | .unlink path => ({ s with bound := update s.bound path none }, .ok)
  | .close pid fd => s.sysClose pid fd

def step (s : Sys) (a : Act) : Sys := (s.call a).1

def run (s : Sys) (acts : List Act) : Sys := acts.foldl step s

end Sys

/-! ### Pointers that are good -/

/-- The pointers to sockets lead to sockets that have not been freed, and peers are each other's. -/
structure Valid (s : Sys) : Prop where
  peer {p q : ℕ} : s.live p → (s.mem p).peer = some q → s.live q ∧ (s.mem q).peer = some p
  backlog {p q : ℕ} : s.live p → q ∈ (s.mem p).backlog → s.live q
  bound {path : Path} {p : ℕ} : s.bound path = some p → s.live p

def Op.Uses (p : ℕ) : Op → Prop
  | .idle => False
  | .accept _ server => server = p
  | .read sock _ => sock = p
  | .write sock dest _ _ => sock = p ∨ dest = p

/-- A descriptor of the process that `alloc_fd` can take. -/
def Sys.Free (s : Sys) (pid fd : ℕ) : Prop := fd ∈ List.range' 3 (maxOpenFiles - 3) ∧ s.files pid fd = .free

/-- A connection that is accepted gets its node and its descriptor. -/
def AcceptFits (s : Sys) (pid server : ℕ) (nodeOk : Bool) : Prop :=
  (s.mem server).backlog ≠ [] → nodeOk ∧ ∃ fd, s.Free pid fd

/-- A socket is closed only if it has no peer, no bound node leads to it and no call waits on it.  An
accept that finds a connection does not fail.  A process that makes a pair of sockets has not just one
free descriptor. -/
def Careful (s : Sys) : Act → Prop
  | .socketpair pid _ ok₁ ok₂ nodesOk => ok₁ → ok₂ → nodesOk →
    ∀ fd, s.Free pid fd → ∃ fd', fd' ≠ fd ∧ s.Free pid fd'
  | .accept _ pid fd _ nodeOk => ∀ p, s.files pid fd = .sock p → AcceptFits s pid p nodeOk
  | .resume task nodeOk => ∀ pid p, s.op task = .accept pid p → AcceptFits s pid p nodeOk
  | .close pid fd => ∀ p, s.files pid fd = .sock p →
    (s.mem p).peer = none ∧ (∀ path, s.bound path ≠ some p) ∧ ∀ t, ¬ (s.op t).Uses p
  | _ => True

def CarefulRun : Sys → List Act → Prop
  | _, [] => True
  | s, a :: acts => Careful s a ∧ CarefulRun (s.step a) acts

/-- What the calls keep.  A socket in a backlog has a peer, and a socket without one has one
descriptor. -/
structure Inv (s : Sys) : Prop extends Valid s where
  lt_next {p : ℕ} : s.live p → p < s.next
  refCount {p : ℕ} : s.live p → (s.mem p).refCount = 1
  connected {p : ℕ} : s.live p → (s.mem p).peer ≠ none → (s.mem p).state = .connected
  waiting {p q : ℕ} : s.live p → q ∈ (s.mem p).backlog → (s.mem q).peer ≠ none
  files {pid fd p : ℕ} : s.files pid fd = .sock p → s.live p
  only {pid fd pid' fd' p : ℕ} : s.files pid fd = .sock p → s.files pid' fd' = .sock p →
    (s.mem p).peer = none → pid = pid' ∧ fd = fd'
  ops {t p : ℕ} : (s.op t).Uses p → s.live p

namespace Sys

variable {s s' : Sys}

/-- The pointers of the second state are those of the first one.  What is freed does not matter. -/
structure Agree (s s' : Sys) : Prop where
  live (p : ℕ) : s'.live p = s.live p
  next : s.next ≤ s'.next
  bound (path : Path) (p : ℕ) : s'.bound path = some p → s.bound path = some p
  files : s'.files = s.files
  mem (p : ℕ) : s.live p → (s'.mem p).peer = (s.mem p).peer ∧
    (∀ q ∈ (s'.mem p).backlog, q ∈ (s.mem p).backlog) ∧ (s'.mem p).refCount = (s.mem p).refCount ∧
    ((s'.mem p).peer ≠ none → (s'.mem p).state = (s.mem p).state)
  ops {t p : ℕ} : (s'.op t).Uses p → s.live p

end Sys

open Sys

variable {s s' : Sys}

lemma Inv.agree (h : Inv s) (ha : Agree s s') : Inv s'
  where
  peer {p q} hp hpq := by
    rw [ha.live] at hp
    rw [(ha.mem p hp).1] at hpq
    obtain ⟨hq, hqp⟩ := h.peer hp hpq
    exact ⟨ha.live q ▸ hq, (ha.mem q hq).1 ▸ hqp⟩
  backlog {p q} hp hq := by
    rw [ha.live] at hp ⊢
    exact h.backlog hp ((ha.mem p hp).2.1 q hq)
  bound {path p} hp := ha.live p ▸ h.bound (ha.bound path p hp)
  lt_next {p} hp := (h.lt_next (ha.live p ▸ hp)).trans_le ha.next
  refCount {p} hp := by
    rw [ha.live] at hp
    exact (ha.mem p hp).2.2.1.trans (h.refCount hp)
  connected {p} hp hpeer := by
    rw [ha.live] at hp
    rw [(ha.mem p hp).2.2.2 hpeer]
    exact h.connected hp ((ha.mem p hp).1 ▸ hpeer)
  waiting {p q} hp hq := by
    rw [ha.live] at hp
    have hmem := (ha.mem p hp).2.1 q hq
    rw [(ha.mem q (h.backlog hp hmem)).1]
    exact h.waiting hp hmem
  files {pid fd p} hp := by
    rw [ha.files] at hp
    exact ha.live p ▸ h.files hp
  only {pid fd pid' fd' p} hp hp' hpeer := by
    rw [ha.files] at hp hp'
    exact h.only hp hp' ((ha.mem p (h.files hp)).1 ▸ hpeer)
  ops hp := ha.live _ ▸ ha.ops hp

/-- What a change of a socket leaves is as before in all of them. -/
lemma apply_modify {α : Type} (g : Socket → α) {f : Socket → Socket} (hf : ∀ k, g (f k) = g k) (p r : ℕ) :
  g ((s.modify p f).mem r) = g (s.mem r)
  := by
  by_cases hr : r = p
  · subst hr
    exact (congrArg g (update_self ..)).trans (hf _)
  · exact congrArg g (update_of_ne hr _ _)

variable {fd p : ℕ}

/-- The memory of a socket changes, but no pointer of it. -/
lemma Inv.agree_modify (h : Inv s) {f : Socket → Socket} (hpeer : (f (s.mem p)).peer = (s.mem p).peer)
    (hbacklog : ∀ q ∈ (f (s.mem p)).backlog, q ∈ (s.mem p).backlog)
    (href : (f (s.mem p)).refCount = (s.mem p).refCount)
    (hstate : (f (s.mem p)).peer ≠ none → (f (s.mem p)).state = (s.mem p).state) :
  Agree s (s.modify p f)
  where
  live _ := rfl
  next := Nat.le_refl _
  bound _ _ := id
  files := rfl
  mem r _ := by
    by_cases hr : r = p
    · subst hr
      simp only [Sys.modify, update_self]
      exact ⟨hpeer, hbacklog, href, hstate⟩
    · simp only [Sys.modify, update_of_ne hr, imp_self, implies_true, and_self]
  ops := h.ops

/-- A task waits in another call, or in none. -/
lemma Inv.agree_block (h : Inv s) (task : ℕ) {op : Op} (hop : ∀ p, op.Uses p → s.live p) :
  Agree s (s.block task op)
  where
  live _ := rfl
  next := Nat.le_refl _
  bound _ _ := id
  files := rfl
  mem _ _ := ⟨rfl, fun _ => id, rfl, fun _ => rfl⟩
  ops {t p} hp := by
    by_cases ht : t = task
    · subst ht
      simp only [block, update_self] at hp
      exact hop p hp
    · simp only [block, update_of_ne ht] at hp
      exact h.ops hp

lemma Inv.done (h : Inv s) (task : ℕ) : Inv (s.done task)
  := h.agree (h.agree_block task fun _ => False.elim)

lemma Inv.not_live_next (h : Inv s) : s.live s.next = false
  := Bool.eq_false_iff.mpr fun hlive => absurd (h.lt_next hlive) (Nat.lt_irrefl _)

lemma Inv.ne_next (h : Inv s) (hp : s.live p) : p ≠ s.next
  := (h.lt_next hp).ne

lemma live_create_of_live (type : ℕ) (hp : s.live p) : (s.create type).live p
  := by
  simp only [create, update_apply, hp, ite_self]

lemma mem_create (h : Inv s) (type : ℕ) (hp : s.live p) : (s.create type).mem p = s.mem p
  := update_of_ne (h.ne_next hp) _ _

/-- A new socket has no pointers, and there are none to it. -/
lemma Inv.create (h : Inv s) (type : ℕ) : Inv (s.create type)
  := by
  have hcases : ∀ {p}, (s.create type).live p →
      p = s.next ∧ (s.create type).mem p = .new type ∨ s.live p ∧ (s.create type).mem p = s.mem p := by
    intro p hp
    by_cases hnext : p = s.next
    · subst hnext
      exact .inl ⟨rfl, update_self _ _ _⟩
    · simp only [Sys.create, update_of_ne hnext] at hp
      exact .inr ⟨hp, mem_create h type hp⟩
  refine ⟨⟨?_, ?_, ?_⟩, ?_, ?_, ?_, ?_, ?_, ?_, ?_⟩
  · intro p q hp hpq
    obtain ⟨-, hmem⟩ | ⟨hp, hmem⟩ := hcases hp
    · rw [hmem] at hpq
      exact absurd hpq nofun
    · rw [hmem] at hpq
      obtain ⟨hq, hqp⟩ := h.peer hp hpq
      exact ⟨live_create_of_live type hq, mem_create h type hq ▸ hqp⟩
  · intro p q hp hq
    obtain ⟨-, hmem⟩ | ⟨hp, hmem⟩ := hcases hp
    · rw [hmem] at hq
      exact absurd hq nofun
    · rw [hmem] at hq
      exact live_create_of_live type (h.backlog hp hq)
  · intro path p hp
    exact live_create_of_live type (h.bound hp)
  · intro p hp
    obtain ⟨rfl, -⟩ | ⟨hp, -⟩ := hcases hp
    · exact Nat.lt_succ_self _
    · exact (h.lt_next hp).trans (Nat.lt_succ_self _)
  · intro p hp
    obtain ⟨-, hmem⟩ | ⟨hp, hmem⟩ := hcases hp
    · rw [hmem]
      rfl
    · exact hmem ▸ h.refCount hp
  · intro p hp hpeer
    obtain ⟨-, hmem⟩ | ⟨hp, hmem⟩ := hcases hp
    · rw [hmem] at hpeer
      exact absurd rfl hpeer
    · rw [hmem] at hpeer ⊢
      exact h.connected hp hpeer
  · intro p q hp hq
    obtain ⟨-, hmem⟩ | ⟨hp, hmem⟩ := hcases hp
    · rw [hmem] at hq
      exact absurd hq nofun
    · rw [hmem] at hq
      rw [mem_create h type (h.backlog hp hq)]
      exact h.waiting hp hq
  · intro pid fd p hp
    exact live_create_of_live type (h.files hp)
  · intro pid fd pid' fd' p hp hp' hpeer
    rw [mem_create h type (h.files hp)] at hpeer
    exact h.only hp hp' hpeer
  · intro t p hp
    exact live_create_of_live type (h.ops hp)

section Link

variable {p q : ℕ}

lemma mem_link (r : ℕ) :
  ((s.link p q).mem r).backlog = (s.mem r).backlog ∧
    ((s.link p q).mem r).refCount = (s.mem r).refCount
  := by
  simp only [Sys.link, Sys.modify, update_apply]
  split_ifs with hrq hqp hrp
  · exact ⟨by rw [hrq, hqp], by rw [hrq, hqp]⟩
  · exact ⟨by rw [hrq], by rw [hrq]⟩
  · exact ⟨by rw [hrp], by rw [hrp]⟩
  · exact ⟨rfl, rfl⟩

lemma peer_link (r : ℕ) :
  ((s.link p q).mem r).peer = if r = q then some p else if r = p then some q else (s.mem r).peer
  := by
  simp only [Sys.link, Sys.modify, update_apply]
  split_ifs <;> rfl

lemma state_link (r : ℕ) :
  ((s.link p q).mem r).state = if r = q ∨ r = p then .connected else (s.mem r).state
  := by
  simp only [Sys.link, Sys.modify, update_apply]
  split_ifs <;> first | rfl | omega

/-- Two sockets without a peer are connected with each other. -/
lemma Inv.link (h : Inv s) (hp : s.live p) (hq : s.live q) (hne : p ≠ q)
    (hpn : (s.mem p).peer = none) (hqn : (s.mem q).peer = none) :
  Inv (s.link p q)
  where
  peer {r t} hr hrt := by
    rw [peer_link] at hrt ⊢
    split_ifs at hrt with hrq hrp
    · obtain rfl : p = t := Option.some.inj hrt
      exact ⟨hp, by rw [if_neg hne, if_pos rfl, hrq]⟩
    · obtain rfl : q = t := Option.some.inj hrt
      exact ⟨hq, by rw [if_pos rfl, hrp]⟩
    · obtain ⟨ht, htr⟩ := h.peer hr hrt
      have htp : t ≠ p := by
        rintro rfl
        exact absurd (hpn.symm.trans htr) nofun
      have htq : t ≠ q := by
        rintro rfl
        exact absurd (hqn.symm.trans htr) nofun
      exact ⟨ht, by rw [if_neg htq, if_neg htp, htr]⟩
  backlog {r t} hr ht := h.backlog hr ((mem_link r).1 ▸ ht)
  bound := h.bound
  lt_next := h.lt_next
  refCount {r} hr := (mem_link r).2.trans (h.refCount hr)
  connected {r} hr hpeer := by
    rw [state_link]
    split_ifs with hor
    · rfl
    · rw [not_or] at hor
      rw [peer_link, if_neg hor.1, if_neg hor.2] at hpeer
      exact h.connected hr hpeer
  waiting {r t} hr ht := by
    have hpeer := h.waiting hr ((mem_link r).1 ▸ ht)
    rw [peer_link]
    split_ifs
    · exact nofun
    · exact nofun
    · exact hpeer
  files := h.files
  only {pid fd pid' fd' r} hr hr' hpeer := by
    rw [peer_link] at hpeer
    split_ifs at hpeer
    exact h.only hr hr' hpeer
  ops := h.ops

end Link

/-- A socket that has a peer goes into a backlog. -/
lemma Inv.push (h : Inv s) (p : ℕ) {q : ℕ} (hq : s.live q) (hpeer : (s.mem q).peer ≠ none) :
  Inv (s.modify p fun k => { k with backlog := k.backlog ++ [q] })
  := by
  have hpeers (r : ℕ) := apply_modify (s := s) Socket.peer
    (f := fun k => { k with backlog := k.backlog ++ [q] }) (fun _ => rfl) p r
  have hbacklog : ∀ {r t}, t ∈ ((s.modify p fun k => { k with backlog := k.backlog ++ [q] }).mem
      r).backlog → t ∈ (s.mem r).backlog ∨ t = q := by
    intro r t ht
    simp only [Sys.modify, update_apply] at ht
    split_ifs at ht with hr
    · rw [hr]
      simpa using ht
    · exact .inl ht
  refine ⟨⟨?_, ?_, h.bound⟩, h.lt_next, ?_, ?_, ?_, h.files, ?_, h.ops⟩
  · intro r t hr hrt
    rw [hpeers] at hrt ⊢
    exact h.peer hr hrt
  · intro r t hr ht
    obtain ht | rfl := hbacklog ht
    · exact h.backlog hr ht
    · exact hq
  · intro r hr
    exact (apply_modify Socket.refCount (by exact fun _ => rfl) p r).trans (h.refCount hr)
  · intro r hr hrp
    rw [hpeers] at hrp
    exact (apply_modify Socket.state (by exact fun _ => rfl) p r).trans (h.connected hr hrp)
  · intro r t hr ht
    rw [hpeers]
    obtain ht | rfl := hbacklog ht
    · exact h.waiting hr ht
    · exact hpeer
  · intro pid fd pid' fd' r hr hr' hrp
    rw [hpeers] at hrp
    exact h.only hr hr' hrp

lemma files_setFile (pid fd : ℕ) (slot : Slot) (pid' fd' : ℕ) :
  (s.setFile pid fd slot).files pid' fd'
    = if pid' = pid ∧ fd' = fd then slot else s.files pid' fd'
  := by
  simp only [setFile]
  by_cases hpid : pid' = pid
  · subst hpid
    simp only [update_self, update_apply, true_and]
  · simp only [update_of_ne hpid, hpid, false_and, if_false]

/-- A descriptor is given to a socket that has none, or that has a peer. -/
lemma Inv.setFile_sock (h : Inv s) (pid fd : ℕ) (hp : s.live p)
    (hnone : (s.mem p).peer = none → ∀ pid fd, s.files pid fd ≠ .sock p) :
  Inv (s.setFile pid fd (.sock p))
  where
  toValid := ⟨h.peer, h.backlog, h.bound⟩
  lt_next := h.lt_next
  refCount := h.refCount
  connected := h.connected
  waiting := h.waiting
  files {pid' fd' q} hq := by
    rw [files_setFile] at hq
    split_ifs at hq
    · exact Slot.sock.inj hq ▸ hp
    · exact h.files hq
  only {pid₁ fd₁ pid₂ fd₂ q} h₁ h₂ hpeer := by
    rw [files_setFile] at h₁ h₂
    split_ifs at h₁ h₂ with hat₁ hat₂ hat₂
    · exact ⟨hat₁.1.trans hat₂.1.symm, hat₁.2.trans hat₂.2.symm⟩
    · obtain rfl := Slot.sock.inj h₁
      exact absurd h₂ (hnone hpeer _ _)
    · obtain rfl := Slot.sock.inj h₂
      exact absurd h₁ (hnone hpeer _ _)
    · exact h.only h₁ h₂ hpeer
  ops := h.ops

/-- A descriptor is given up. -/
lemma Inv.setFile_free (h : Inv s) (pid fd : ℕ) : Inv (s.setFile pid fd .free)
  where
  toValid := ⟨h.peer, h.backlog, h.bound⟩
  lt_next := h.lt_next
  refCount := h.refCount
  connected := h.connected
  waiting := h.waiting
  files {pid' fd' q} hq := by
    rw [files_setFile] at hq
    split_ifs at hq
    exact h.files hq
  only {pid₁ fd₁ pid₂ fd₂ q} h₁ h₂ hpeer := by
    rw [files_setFile] at h₁ h₂
    split_ifs at h₁ h₂
    exact h.only h₁ h₂ hpeer
  ops := h.ops

/-- A socket without a peer is freed by `unix_socket_close`. -/
lemma unixSocketClose_eq (href : (s.mem p).refCount = 1) (hpeer : (s.mem p).peer = none) :
  s.unixSocketClose p
    = { s.modify p fun k => { k with state := .closed, peerClosed := true, refCount := 0 } with
        live := update s.live p false }
  := by
  simp only [unixSocketClose, Sys.modify, update_self, hpeer, href, update_idem]
  rfl

/-- A socket to which no pointer leads is freed. -/
lemma Inv.unixSocketClose (h : Inv s) (hp : s.live p) (hpeer : (s.mem p).peer = none)
    (hbound : ∀ path, s.bound path ≠ some p) (hfile : ∀ pid fd, s.files pid fd ≠ .sock p)
    (hop : ∀ t, ¬ (s.op t).Uses p) :
  Inv (s.unixSocketClose p)
  := by
  rw [unixSocketClose_eq (h.refCount hp) hpeer]
  have hlive : ∀ {r}, update s.live p false r → r ≠ p ∧ s.live r := by
    intro r hr
    by_cases hrp : r = p
    · rw [hrp, update_self] at hr
      exact absurd hr nofun
    · rw [update_of_ne hrp] at hr
      exact ⟨hrp, hr⟩
  have hstays : ∀ {r}, r ≠ p → s.live r → update s.live p false r := by
    intro r hrp hr
    rwa [update_of_ne hrp]
  have hpeers (r : ℕ) := apply_modify (s := s) Socket.peer
    (f := fun k => { k with state := .closed, peerClosed := true, refCount := 0 }) (fun _ => rfl) p r
  have hmem : ∀ {r}, r ≠ p → (s.modify p fun k =>
      { k with state := .closed, peerClosed := true, refCount := 0 }).mem r = s.mem r :=
    fun hr => update_of_ne hr _ _
  refine ⟨⟨?_, ?_, ?_⟩, ?_, ?_, ?_, ?_, ?_, ?_, ?_⟩
  · intro r t hr hrt
    rw [hpeers] at hrt ⊢
    obtain ⟨hr, hrl⟩ := hlive hr
    obtain ⟨ht, htr⟩ := h.peer hrl hrt
    -- the socket itself is nobody's peer, for it has none
    refine ⟨hstays ?_ ht, htr⟩
    rintro rfl
    exact absurd (hpeer.symm.trans htr) nofun
  · intro r t hr ht
    obtain ⟨hr, hrl⟩ := hlive hr
    rw [hmem hr] at ht
    refine hstays ?_ (h.backlog hrl ht)
    rintro rfl
    exact h.waiting hrl ht hpeer
  · intro path r hr
    refine hstays ?_ (h.bound hr)
    rintro rfl
    exact hbound path hr
  · intro r hr
    exact h.lt_next (hlive hr).2
  · intro r hr
    obtain ⟨hr, hrl⟩ := hlive hr
    rw [hmem hr]
    exact h.refCount hrl
  · intro r hr hrp
    obtain ⟨hr, hrl⟩ := hlive hr
    rw [hmem hr] at hrp ⊢
    exact h.connected hrl hrp
  · intro r t hr ht
    obtain ⟨hr, hrl⟩ := hlive hr
    rw [hmem hr] at ht
    rw [hpeers]
    exact h.waiting hrl ht
  · intro pid fd r hr
    refine hstays ?_ (h.files hr)
    rintro rfl
    exact hfile pid fd hr
  · intro pid fd pid' fd' r hr hr' hrp
    rw [hpeers] at hrp
    exact h.only hr hr' hrp
  · intro t r hr
    refine hstays ?_ (h.ops hr)
    rintro rfl
    exact hop t hr

/-! ### The calls -/

lemma find_allocFd {pid : ℕ} (h : s.allocFd pid = some fd) : s.files pid fd = .free
  := by
  simpa using find?_some h

lemma exists_allocFd {pid : ℕ} (h : s.Free pid fd) : ∃ fd', s.allocFd pid = some fd'
  := by
  cases hfind : s.allocFd pid with
  | some fd' => exact ⟨fd', rfl⟩
  | none =>
    have := find?_eq_none.mp hfind fd h.1
    simp [h.2] at this

/-- A socket that could not get its node is freed again. -/
lemma Inv.create_unixSocketClose (h : Inv s) (type : ℕ) :
  Inv ((s.create type).unixSocketClose s.next)
  := by
  have hdead : ¬ s.live s.next := by simp [h.not_live_next]
  apply (h.create type).unixSocketClose
  · simp [Sys.create]
  · simp [Sys.create, Socket.new]
  · intro path hpath
    exact hdead (h.bound hpath)
  · intro pid fd hfd
    exact hdead (h.files hfd)
  · intro t ht
    exact hdead (h.ops ht)

lemma Inv.sysSocket (h : Inv s) (pid type : ℕ) (sockOk nodeOk : Bool) :
  Inv (s.sysSocket pid type sockOk nodeOk).1
  := by
  unfold Sys.sysSocket
  split
  · exact h
  dsimp only
  split
  · exact h.create_unixSocketClose type
  split
  · exact h.create type
  · apply (h.create type).setFile_sock
    · simp [Sys.create]
    · intro _ pid' fd' hfile
      exact absurd (h.files hfile) (by simp [h.not_live_next])

/-- What `unix_socket_close` does to the other sockets. -/
structure Closes (s : Sys) (p : ℕ) (s' : Sys) : Prop where
  live : s'.live = update s.live p false
  next : s'.next = s.next
  bound : s'.bound = s.bound
  files : s'.files = s.files
  op : s'.op = s.op
  mem (r : ℕ) : r ≠ p → (s'.mem r).peer = (s.mem r).peer ∧ (s'.mem r).backlog = (s.mem r).backlog ∧
    (s'.mem r).refCount = (s.mem r).refCount ∧ (s'.mem r).state = (s.mem r).state

lemma closes_unixSocketClose (href : (s.mem p).refCount = 1) :
  Closes s p (s.unixSocketClose p)
  := by
  cases hpeer : (s.mem p).peer with
  | none =>
    rw [unixSocketClose_eq href hpeer]
    refine ⟨rfl, rfl, rfl, rfl, rfl, fun r hr => ?_⟩
    simp only [Sys.modify, update_of_ne hr, and_self]
  | some q =>
    by_cases hqp : q = p
    · subst hqp
      simp only [Sys.unixSocketClose, Sys.modify, update_self, hpeer, href]
      refine ⟨rfl, rfl, rfl, rfl, rfl, fun r hr => ?_⟩
      simp only [Int.sub_self, le_refl, if_true, update_of_ne hr, and_self]
    · simp only [Sys.unixSocketClose, Sys.modify, update_self, hpeer, href,
        update_of_ne (Ne.symm hqp), update_of_ne hqp]
      refine ⟨rfl, rfl, rfl, rfl, rfl, fun r hr => ?_⟩
      simp only [Int.sub_self, le_refl, if_true, update_of_ne hr, update_apply]
      split_ifs with hrq
      · simp only [hrq, and_self]
      · simp only [and_self]

section

variable (h : Inv s)

include h

/-- The pair as it is before it has descriptors. -/
lemma Inv.pair (type : ℕ) :
  Inv (((s.create type).create type).link s.next (s.next + 1))
  := by
  apply ((h.create type).create type).link
  · exact live_create_of_live type (by simp [Sys.create])
  · simp [Sys.create]
  · omega
  · simp [Sys.create, Socket.new]
  · simp [Sys.create, Socket.new]

/-- A pair that could not get its nodes is freed again.  The second close finds a peer that is freed
already. -/
lemma Inv.pair_unixSocketClose (type : ℕ) :
  Inv (((((s.create type).create type).link s.next (s.next + 1)).unixSocketClose
    s.next).unixSocketClose (s.next + 1))
  := by
  have hpair := h.pair type
  obtain ⟨s₁, hs₁⟩ : ∃ s₁, s₁ = ((s.create type).create type).link s.next (s.next + 1) := ⟨_, rfl⟩
  rw [← hs₁] at hpair ⊢
  have hlive : ∀ r, s₁.live r
      = update (update s.live s.next true) (s.next + 1) true r := by
    rw [hs₁]
    exact fun _ => rfl
  have hmem : ∀ r ≠ s.next, r ≠ s.next + 1 → s₁.mem r = s.mem r := by
    intro r hp hq
    simp [hs₁, Sys.link, Sys.modify, Sys.create, update_of_ne hp, update_of_ne hq]
  obtain ⟨hnext, hbound, hfiles, hop⟩ : s₁.next = s.next + 1 + 1 ∧ s₁.bound = s.bound ∧ s₁.files = s.files
      ∧ s₁.op = s.op := by
    rw [hs₁]
    exact ⟨rfl, rfl, rfl, rfl⟩
  have hfirst := closes_unixSocketClose (hpair.refCount (p := s.next) (by simp [hlive]))
  have hsecond := closes_unixSocketClose (s := s₁.unixSocketClose s.next) (p := s.next + 1) (by
    rw [(hfirst.mem (s.next + 1) (by omega)).2.2.1]
    exact hpair.refCount (by simp [hlive]))
  apply h.agree
  refine ⟨fun r => ?_, ?_, fun path r => ?_, ?_, fun r hr => ?_, fun {t r} hr => ?_⟩
  · rw [hsecond.live, hfirst.live]
    simp only [update_apply, hlive]
    have hdead := fun hr : s.live r => h.lt_next hr
    split_ifs with hq hp
    · exact (Bool.eq_false_iff.mpr fun hr => absurd (hdead hr) (by omega)).symm
    · exact (Bool.eq_false_iff.mpr fun hr => absurd (hdead hr) (by omega)).symm
    · rfl
  · rw [hsecond.next, hfirst.next]
    omega
  · rw [hsecond.bound, hfirst.bound, hbound]
    exact id
  · rw [hsecond.files, hfirst.files, hfiles]
  · have hlt := h.lt_next hr
    have h₂ := hsecond.mem r (by omega)
    have h₁ := hfirst.mem r (by omega)
    rw [h₂.1, h₂.2.1, h₂.2.2.1, h₂.2.2.2, h₁.1, h₁.2.1, h₁.2.2.1, h₁.2.2.2,
      hmem r (by omega) (by omega)]
    exact ⟨rfl, fun _ => id, rfl, fun _ => rfl⟩
  · rw [hsecond.op, hfirst.op, hop] at hr
    exact h.ops hr

variable {p pid : ℕ}

lemma Inv.sysSocketpair {type : ℕ} {ok₁ ok₂ nodesOk : Bool}
    (ha : Careful s (.socketpair pid type ok₁ ok₂ nodesOk)) :
  Inv (s.sysSocketpair pid type ok₁ ok₂ nodesOk).1
  := by
  unfold Sys.sysSocketpair
  split
  · exact h
  split
  · exact h.create_unixSocketClose type
  next hok =>
    dsimp only
    split
    · exact h.pair_unixSocketClose type
    next hnodes =>
      have hpair := h.pair type
      split
      · exact hpair
      next fd₁ hfd₁ =>
        have hone := hpair.setFile_sock pid fd₁ (p := s.next)
          (live_create_of_live type (by simp [Sys.create])) (by
            intro hnone
            rw [peer_link, if_neg (by omega), if_pos rfl] at hnone
            exact absurd hnone nofun)
        split
        · next hfull =>
          -- there was a second free descriptor
          have hfree : s.Free pid fd₁ :=
            ⟨mem_of_find?_eq_some hfd₁, find_allocFd hfd₁⟩
          simp only [Bool.or_eq_true, Bool.not_eq_true', not_or, Bool.not_eq_false] at hok hnodes
          obtain ⟨fd₂, hne, hmem, hfd₂⟩ := ha hok.1 hok.2 hnodes fd₁ hfree
          have := find?_eq_none.mp hfull fd₂ hmem
          rw [files_setFile, if_neg (by simp [hne])] at this
          simp [Sys.link, Sys.modify, Sys.create, hfd₂] at this
        · apply hone.setFile_sock
          · exact (by simp [Sys.create, Sys.setFile, Sys.link, Sys.modify])
          · intro hnone
            exact absurd hnone (by simp [Sys.setFile, Sys.link, Sys.modify])

lemma agree_unbind (path : Path) :
  Agree s { s with bound := update s.bound path none }
  where
  live _ := rfl
  next := Nat.le_refl _
  bound path' p hp := by
    simp only [update_apply] at hp
    split_ifs at hp
    exact hp
  files := rfl
  mem _ _ := ⟨rfl, fun _ => id, rfl, fun _ => rfl⟩
  ops := h.ops

lemma Inv.setBound (path : Path) (hp : s.live p) :
  Inv { s with bound := update s.bound path (some p) }
  where
  toValid := {
    peer := h.peer
    backlog := h.backlog
    bound := fun {path' q} hq => by
      simp only [update_apply] at hq
      split_ifs at hq
      · exact Option.some.inj hq ▸ hp
      · exact h.bound hq }
  lt_next := h.lt_next
  refCount := h.refCount
  connected := h.connected
  waiting := h.waiting
  files := h.files
  only := h.only
  ops := h.ops

/-- A socket that is not connected has no peer. -/
lemma Inv.peer_eq_none (hp : s.live p) (hstate : (s.mem p).state ≠ .connected) :
  (s.mem p).peer = none
  := by
  by_contra hpeer
  exact hstate (h.connected hp hpeer)

lemma Inv.unixSocketBind (hp : s.live p) (path : Path) (dirOk nodeOk : Bool) :
  Inv (s.unixSocketBind p path dirOk nodeOk).1
  := by
  have hunbind := h.agree (agree_unbind h path)
  unfold Sys.unixSocketBind
  split
  · exact h
  next hstate =>
    rw [not_not] at hstate
    have hpeer := h.peer_eq_none hp (by rw [hstate]; exact nofun)
    split
    · exact hunbind
    split
    · exact hunbind
    have hbound : Inv { s with
        bound := update (update s.bound path none) path (some p) } :=
      hunbind.setBound path hp
    apply hbound.agree
    dsimp only
    apply hbound.agree_modify
    · rfl
    · exact fun _ => id
    · rfl
    · exact fun hne => absurd hpeer hne

lemma Inv.unixSocketListen (hp : s.live p) (backlog : ℤ) :
  Inv (s.unixSocketListen p backlog).1
  := by
  unfold Sys.unixSocketListen
  split
  · exact h
  next hstate =>
    rw [not_not] at hstate
    have hpeer := h.peer_eq_none hp (by rw [hstate]; exact nofun)
    apply h.agree
    dsimp only
    apply h.agree_modify
    · rfl
    · exact fun _ hq => absurd hq not_mem_nil
    · rfl
    · exact fun hne => absurd hpeer hne

lemma Inv.unixSocketConnect {client : ℕ} (hp : s.live client) (path : Path)
    (sockOk : Bool) :
  Inv (s.unixSocketConnect client path sockOk).1
  := by
  unfold Sys.unixSocketConnect
  split
  · exact h
  next hstate =>
    split
    · exact h
    next server hserver =>
      split_ifs
      · exact h
      · exact h
      · exact h
      · have hlink : Inv ((s.create (s.mem client).type).link client s.next) := by
          apply (h.create _).link
          · exact live_create_of_live _ hp
          · simp [Sys.create]
          · exact h.ne_next hp
          · rw [mem_create h _ hp]
            exact h.peer_eq_none hp hstate
          · simp [Sys.create, Socket.new]
        apply hlink.push
        · simp [Sys.link, Sys.modify, Sys.create]
        · rw [peer_link, if_pos rfl]
          exact nofun

/-- An accept that does not fail takes a connection, which has a peer, out of the backlog. -/
lemma Inv.acceptRound {server : ℕ} (hserver : s.live server) (task : ℕ)
    (nonblock : Bool) {nodeOk : Bool} (hfits : AcceptFits s pid server nodeOk) :
  Inv (s.acceptRound task pid server nonblock nodeOk).1
  := by
  unfold Sys.acceptRound
  split
  · split_ifs
    · exact h.done task
    · exact h.done task
    · refine h.agree (h.agree_block task fun p hp => ?_)
      rwa [show server = p from hp] at hserver
  · next accepted rest hbacklog =>
    have hmem : accepted ∈ (s.mem server).backlog := hbacklog ▸ mem_cons_self
    obtain ⟨hnode, fd, hfree⟩ := hfits (ne_nil_of_mem hmem)
    have hpop : Inv ((s.done task).modify server fun k => { k with backlog := rest }) := by
      apply (h.done task).agree
      apply (h.done task).agree_modify rfl _ rfl fun _ => rfl
      intro q hq
      exact hbacklog ▸ mem_cons_of_mem _ hq
    obtain ⟨fd', hfd'⟩ := exists_allocFd (s := (s.done task).modify server
      fun k => { k with backlog := rest }) hfree
    simp only [hnode, hfd']
    apply hpop.setFile_sock
    · exact h.backlog hserver hmem
    intro hnone
    refine absurd ?_ (h.waiting hserver hmem)
    simp only [Sys.modify, update_apply] at hnone
    split_ifs at hnone with heq
    · rw [heq]
      exact hnone
    · exact hnone

lemma Inv.readRound (hp : s.live p) (task size : ℕ) (nonblock : Bool) :
  Inv (s.readRound task p size nonblock).1
  := by
  unfold Sys.readRound
  split_ifs
  · exact h.done task
  · exact h.done task
  · refine h.agree (h.agree_block task fun q hq => ?_)
    rwa [show p = q from hq] at hp
  · apply (h.done task).agree
    dsimp only
    apply (h.done task).agree_modify
    · rfl
    · exact fun _ => id
    · rfl
    · exact fun _ => rfl

lemma Inv.writeRound {dest : ℕ} (hp : s.live p) (hdest : s.live dest) (task : ℕ)
    (nonblock : Bool) (rest : List UInt8) (written : ℕ) :
  Inv (Sys.writeRound task p dest nonblock rest written s).1
  := by
  induction rest generalizing s written with
  | nil => exact h.done task
  | cons b rest ih =>
    rw [Sys.writeRound]
    split
    · split
      · exact h.done task
      split
      · exact h.done task
      · refine h.agree (h.agree_block task fun q hq => ?_)
        obtain rfl | rfl := hq
        · exact hp
        · exact hdest
    · have hput : Inv (s.modify dest fun k => { k with ring := k.ring.putByte sockBufSize b }) := by
        apply h.agree
        apply h.agree_modify
        · rfl
        · exact fun _ => id
        · rfl
        · exact fun _ => rfl
      exact ih hput hp hdest _

lemma Inv.resume {task : ℕ} {nodeOk : Bool} (ha : Careful s (.resume task nodeOk)) :
  Inv (s.resume task nodeOk).1
  := by
  have hops := fun {p} => h.ops (t := task) (p := p)
  unfold Sys.resume
  split
  · exact h
  · next pid server hop =>
    exact h.acceptRound (hops (by rw [hop]; rfl)) task false (ha pid server hop)
  · next p size hop => exact h.readRound (hops (by rw [hop]; rfl)) task size false
  · next p dest rest written hop =>
    exact h.writeRound (hops (by rw [hop]; exact .inl rfl)) (hops (by rw [hop]; exact .inr rfl)) task
      false rest written

lemma Inv.sysClose (ha : Careful s (.close pid fd)) :
  Inv (s.sysClose pid fd).1
  := by
  unfold Sys.sysClose
  split
  · exact h
  split
  · exact h
  · exact h.setFile_free pid fd
  · next p hfile =>
    obtain ⟨hpeer, hbound, hop⟩ := ha p hfile
    apply (h.setFile_free pid fd).unixSocketClose (h.files hfile) hpeer hbound _ hop
    intro pid' fd' hfile'
    rw [files_setFile] at hfile'
    split_ifs at hfile' with hat
    exact hat (h.only hfile' hfile hpeer)

lemma Inv.withSock {call : ℕ → Sys × Result}
    (hcall : ∀ p, s.files pid fd = .sock p → Inv (call p).1) :
  Inv (s.withSock pid fd call).1
  := by
  unfold Sys.withSock
  split
  · exact h
  split
  · exact h
  · exact h
  · next p hfile => exact hcall p hfile

lemma Inv.step {a : Act} (ha : Careful s a) : Inv (s.step a)
  := by
  rw [Sys.step]
  cases a with
  | socket pid type sockOk nodeOk => exact h.sysSocket pid type sockOk nodeOk
  | socketpair pid type ok₁ ok₂ nodesOk => exact h.sysSocketpair ha
  | bind pid fd path dirOk nodeOk =>
    exact h.withSock fun p hp => h.unixSocketBind (h.files hp) path dirOk nodeOk
  | listen pid fd backlog => exact h.withSock fun p hp => h.unixSocketListen (h.files hp) backlog
  | connect pid fd path sockOk =>
    exact h.withSock fun p hp => h.unixSocketConnect (h.files hp) path sockOk
  | accept task pid fd nonblock nodeOk =>
    rw [Sys.call]
    split
    · exact h
    refine h.withSock fun p hp => ?_
    split
    · exact h
    · exact h.acceptRound (h.files hp) task nonblock (ha p hp)
  | read task pid fd size nonblock =>
    rw [Sys.call]
    split
    · exact h
    refine h.withSock fun p hp => ?_
    split
    · exact h
    · exact h.readRound (h.files hp) task size nonblock
  | write task pid fd data nonblock =>
    rw [Sys.call]
    split
    · exact h
    refine h.withSock fun p hp => ?_
    split
    · exact h
    split
    · exact h
    · next dest hpeer =>
      split
      · exact h
      · exact h.writeRound (h.files hp) (h.peer (h.files hp) hpeer).1 task nonblock data 0
  | resume task nodeOk => exact h.resume ha
  | unlink path => exact h.agree (agree_unbind h path)
  | close pid fd => exact h.sysClose ha

end

lemma inv_boot (other : ℕ → ℕ → Bool) : Inv (boot other)
  where
  toValid := ⟨nofun, nofun, nofun⟩
  lt_next := nofun
  refCount := nofun
  connected := nofun
  waiting := nofun
  files {pid fd p} hp := by
    simp only [boot] at hp
    split_ifs at hp
  only {pid fd pid' fd' p} hp := by
    simp only [boot] at hp
    split_ifs at hp
  ops := False.elim

/-- In a run in which sockets are closed with care, all pointers stay good. -/
theorem valid_run (other : ℕ → ℕ → Bool) (acts : List Act) (h : CarefulRun (boot other) acts) :
  Valid ((boot other).run acts)
  := by
  suffices hinv : Inv ((boot other).run acts) from hinv.toValid
  have hinit := inv_boot other
  generalize boot other = s at h hinit ⊢
  induction acts generalizing s with
  | nil => exact hinit
  | cons a acts ih => exact ih (s.step a) h.2 (hinit.step h.1)

/-- The path `/tmp/x`. -/
def tmpX : Path := [47, 116, 109, 112, 47, 120]

/-- A server takes a connection, its path is unlinked, and the listener is closed. -/
theorem valid_run_server :
  (((boot fun _ _ => false).run [.socket 1 1 true true, .bind 1 3 tmpX true true, .listen 1 3 4,
      .socket 2 1 true true, .connect 2 3 tmpX true, .accept 0 1 3 false true, .unlink tmpX,
      .close 1 3]).mem 1).peer = some 2 ∧
  Valid ((boot fun _ _ => false).run [.socket 1 1 true true, .bind 1 3 tmpX true true, .listen 1 3 4,
      .socket 2 1 true true, .connect 2 3 tmpX true, .accept 0 1 3 false true, .unlink tmpX,
      .close 1 3])
  := by
  refine ⟨rfl, valid_run _ _ ⟨trivial, trivial, trivial, trivial, trivial, ?_, trivial, ?_, trivial⟩⟩
  · intro p hp _
    exact ⟨rfl, 5, by decide, rfl⟩
  intro p hp
  obtain rfl : 0 = p := Slot.sock.inj hp
  refine ⟨rfl, fun path => ?_, fun t => ?_⟩
  · change update (update (update (fun _ => none) tmpX none) tmpX (some 0)) tmpX none path ≠ some 0
    by_cases hpath : path = tmpX
    · simp [hpath]
    · simp [update_of_ne hpath]
  · change ¬ Op.Uses 0 (update (fun _ => Op.idle) 0 Op.idle t)
    simp [Op.Uses]

/-- One side of a pair is closed, and the peer of the other is freed; a bound socket is closed, and its
node stays; a connection is accepted without a descriptor for it, and the client's peer is freed. -/
theorem not_valid :
  ¬ Valid ((boot fun _ _ => false).run [.socketpair 1 1 true true true, .close 1 3]) ∧
    ¬ Valid ((boot fun _ _ => false).run [.socket 1 1 true true, .bind 1 3 tmpX true true,
      .close 1 3]) ∧
    ¬ Valid ((boot fun pid fd => pid = 1 ∧ fd ≠ 3).run [.socket 1 1 true true,
      .bind 1 3 tmpX true true, .listen 1 3 4, .socket 2 1 true true, .connect 2 3 tmpX true,
      .accept 0 1 3 false true])
  := by
  refine ⟨fun h => ?_, fun h => ?_, fun h => ?_⟩
  · exact absurd (h.peer (p := 1) (q := 0) rfl rfl).1 nofun
  · exact absurd (@Valid.bound _ h tmpX 0 rfl) nofun
  · exact absurd (h.peer (p := 1) (q := 2) rfl rfl).1 nofun

end UnixSockets
