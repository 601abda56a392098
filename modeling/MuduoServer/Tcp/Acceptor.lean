import MuduoServer.Lib.DescriptorTable
import MuduoServer.Lib.Machine

/-!
# The acceptor and its reserve descriptor

`Acceptor` of `net/acceptor/Acceptor.cc` with the table of descriptors of its process.  When the
table is full, `accept` fails and the connection stays in the queue, so that the loop would be woken
again and again.  For this case the acceptor keeps a descriptor `idleFd_` in reserve: it closes it,
accepts the connection, closes that, and opens the reserve again.

The constructor opens the reserve at a path relative to the current directory and goes on if that
fails.  Besides, `sockets::close` does nothing for descriptor `0`.  `handleRead_recovers` says from
which states one call does what the reserve is for, and `run_recovers` follows a whole run.

The system is modelled as far as the acceptor sees it: `open` and `accept` fail with `EMFILE` if the
table is full, before they look at the path or at the queue.  Nothing else opens a descriptor during
a call, and to log something leaves `errno` alone.
-/

namespace MuduoServer

/-- The values of `errno` that `sockets::accept` tells apart, and `ENOENT`. -/
inductive SysErrno where
  | EAGAIN | ECONNABORTED | EINTR | EPROTO | EPERM | EMFILE
  | EFAULT | EINVAL | ENFILE | ENOMEM | ENOTSOCK | EOPNOTSUPP | EBADF | ENOENT
  deriving DecidableEq

/-- What a descriptor is open on: the acceptor's socket, a file opened by its path, a connection, or
something that the acceptor has nothing to do with. -/
inductive OpenFile (γ : Type*) where
  | listener
  | path
  | connection (c : γ)
  | other
  deriving DecidableEq

/-- The process as the system keeps it. -/
structure Process (γ : Type*) where
  table : DescriptorTable (OpenFile γ)
  errno : SysErrno
  /-- Whether `open` finds or makes the path, from the current directory. -/
  resolves : String → Bool
  /-- The queue of the acceptor's socket. -/
  pending : List γ
  /-- The connections whose descriptor has been closed. -/
  closed : List γ

namespace Process

variable {γ : Type*}

/-- What a descriptor is open on. -/
def fileAt (p : Process γ) (fd : ℤ) : Option (OpenFile γ) :=
  if 0 ≤ fd then p.table.file fd.toNat else none

/-- A new descriptor, and `-1` if the table is full. -/
def allocate (p : Process γ) (file : OpenFile γ) : ℤ × Process γ :=
  match p.table.alloc file with
  | some (fd, table) => (fd, { p with table })
  | none => (-1, { p with errno := .EMFILE })

/-- `::socket`. -/
def socket (p : Process γ) : ℤ × Process γ := { p with pending := [] }.allocate .listener

/-- `::open`. -/
def openPath (p : Process γ) (path : String) : ℤ × Process γ :=
  -- the descriptor is taken before the path is looked up
  if p.table.Full ∨ p.resolves path = true then p.allocate .path
  else (-1, { p with errno := .ENOENT })

/-- `::accept` and `::accept4`, on a socket that does not block. -/
def accept (p : Process γ) (sockfd : ℤ) : ℤ × Process γ :=
  match p.fileAt sockfd with
  | some .listener =>
    if p.table.Full then (-1, { p with errno := .EMFILE })
    else
      match p.pending with
      | [] => (-1, { p with errno := .EAGAIN })
      | c :: pending => { p with pending }.allocate (.connection c)
  | _ => (-1, { p with errno := .EBADF })

/-- `::close`. -/
def close (p : Process γ) (fd : ℤ) : Process γ :=
  match p.fileAt fd with
  | some (.connection c) =>
    { p with table := p.table.close fd.toNat, closed := p.closed ++ [c] }
  | some _ => { p with table := p.table.close fd.toNat }
  | none => { p with errno := .EBADF }

end Process

namespace Sockets

variable {γ : Type*}

/-- The errors after which `sockets::accept` goes on; all others abort the program. -/
def expected : SysErrno → Bool
  | .EAGAIN | .ECONNABORTED | .EINTR | .EPROTO | .EPERM | .EMFILE => true
  | _ => false

/-- `sockets::accept(sockfd, addr)`. -/
def accept (p : Process γ) (sockfd : ℤ) : Option (ℤ × Process γ) :=
  let r := p.accept sockfd
  if r.1 < 0 ∧ expected r.2.errno = false then none else some r

/-- `sockets::close(sockfd)`. -/
def close (p : Process γ) (sockfd : ℤ) : Process γ := if 0 < sockfd then p.close sockfd else p

end Sockets

/-- An `Acceptor` and its process. -/
structure Acceptor (γ : Type*) where
  process : Process γ
  acceptSocket : ℤ
  /-- Whether `newConnectionCallback_` is set. -/
  newConnectionCallback : Bool
  listening : Bool
  idleFd : ℤ
  /-- The descriptors with which `newConnectionCallback_` has been called. -/
  delivered : List ℤ

namespace Acceptor

variable {γ : Type*}

/-- The constructor; `none` when `createNonblockingSocket` aborts the program. -/
def new (p : Process γ) : Option (Acceptor γ) :=
  let (sockfd, p) := p.socket
  if sockfd < 0 then none
  else
    let (idleFd, p) := p.openPath "dev/null"
    some ⟨p, sockfd, false, false, idleFd, []⟩

/-- `listen()`. -/
def listen (a : Acceptor γ) : Acceptor γ := { a with listening := true }

/-- `setNewConnectionCallback(cb)`. -/
def setNewConnectionCallback (a : Acceptor γ) (cb : Bool) : Acceptor γ :=
  { a with newConnectionCallback := cb }

/-- `handleRead()`. -/
def handleRead (a : Acceptor γ) : Option (Acceptor γ) := do
  let (connfd, p) ← Sockets.accept a.process a.acceptSocket
  if 0 ≤ connfd then
    if a.newConnectionCallback = true then
      some { a with process := p, delivered := a.delivered ++ [connfd] }
    else some { a with process := Sockets.close p connfd }
  else if p.errno = .EMFILE then
    let p := p.close a.idleFd
    let (idleFd, p) := p.accept a.acceptSocket
    let p := p.close idleFd
    let (idleFd, p) := p.openPath "/dev/null"
    some { a with process := p, idleFd }
  else some { a with process := p }

/-- The outcome that the reserve is for: a connection is taken off the queue, and is handed on or
closed, the reserve is open, and no more descriptors have been opened than handed on. -/
def Recovers (a a' : Acceptor γ) : Prop :=
  (∃ c, a.process.pending = c :: a'.process.pending ∧
    ((∃ connfd, a'.delivered = a.delivered ++ [connfd] ∧
        a'.process.fileAt connfd = some (.connection c)) ∨
      a'.process.closed = a.process.closed ++ [c])) ∧
  (a'.process.fileAt a'.idleFd).isSome ∧
  a'.process.table.count + a.delivered.length ≤ a.process.table.count + a'.delivered.length

end Acceptor

/-- What happens to an acceptor and its process: calls, connections that arrive, descriptors that
others open and close, and a change of the directory. -/
inductive AcceptorLabel (γ : Type*) where
  | listen
  | setNewConnectionCallback (cb : Bool)
  | arrive (c : γ)
  | handleRead
  | openOther
  | closeOther (fd : ℤ)
  | chdir (resolves : String → Bool)

/-- The acceptor in its process.  `handleRead` is called when a connection is pending, and leaves
the states before and after the call as its event. -/
def acceptorMachine (γ : Type*) : Machine (Acceptor γ) (AcceptorLabel γ) (Acceptor γ × Acceptor γ)
    where
  pre a
    | .arrive _ => a.listening = true
    | .handleRead => a.listening = true ∧ a.process.pending ≠ []
    | .closeOther fd => fd ≠ a.acceptSocket ∧ fd ≠ a.idleFd
    | _ => True
  step a
    | .listen => some (a.listen, [])
    | .setNewConnectionCallback cb => some (a.setNewConnectionCallback cb, [])
    | .arrive c =>
      some ({ a with process := { a.process with pending := a.process.pending ++ [c] } }, [])
    | .handleRead => a.handleRead.map fun a' => (a', [(a, a')])
    | .openOther => some ({ a with process := (a.process.allocate .other).2 }, [])
    | .closeOther fd => some ({ a with process := a.process.close fd }, [])
    | .chdir resolves => some ({ a with process := { a.process with resolves } }, [])

instance {γ : Type*} (a : Acceptor γ) (l : AcceptorLabel γ) [DecidableEq γ] :
    Decidable ((acceptorMachine γ).pre a l) := by
  cases l <;> unfold acceptorMachine <;> infer_instance

/-! ### The system calls -/

namespace Process

open DescriptorTable

variable {γ : Type*} {p : Process γ} {fd n : ℤ} {file : OpenFile γ} {c : γ} {pending : List γ}

/-- A descriptor that is a number of the table stands for its entry. -/
@[simp] lemma fileAt_natCast (p : Process γ) (fd : ℕ) : p.fileAt fd = p.table.file fd :=
  if_pos (Int.natCast_nonneg fd)

/-- `-1` stands for nothing. -/
@[simp] lemma fileAt_neg_one (p : Process γ) : p.fileAt (-1) = none := if_neg (by decide)

/-- What stands for a file is not negative. -/
lemma nonneg_of_fileAt (h : p.fileAt fd = some file) : 0 ≤ fd := by
  by_contra hneg
  rw [fileAt, if_neg hneg] at h
  cases h

/-- The entry of the table behind an open descriptor. -/
lemma file_of_fileAt (h : p.fileAt fd = some file) : p.table.file fd.toNat = some file := by
  rwa [fileAt, if_pos (nonneg_of_fileAt h)] at h

/-- An open descriptor is in use. -/
lemma isSome_of_fileAt (h : p.fileAt fd = some file) : (p.table.file fd.toNat).isSome := by
  rw [file_of_fileAt h]
  rfl

/-- What a descriptor stands for depends on the table alone. -/
lemma fileAt_of_table {p' : Process γ} (h : p'.table = p.table) : p'.fileAt fd = p.fileAt fd := by
  rw [fileAt, fileAt, h]

/-- What is open stays open when a descriptor is allocated. -/
lemma fileAt_of_allocated {table : DescriptorTable (OpenFile γ)} {k : ℕ} {newFile : OpenFile γ}
    (h : Allocated p.table newFile k table) (hfile : p.fileAt fd = some file) {p' : Process γ}
    (htable : p'.table = table) : p'.fileAt fd = some file := by
  rw [fileAt, if_pos (nonneg_of_fileAt hfile), htable]
  exact h.file_of_some (file_of_fileAt hfile)

/-- In a full table there is no descriptor to be had, and `errno` says so. -/
lemma allocate_of_full (h : p.table.Full) (file : OpenFile γ) :
    p.allocate file = (-1, { p with errno := .EMFILE }) := by
  rw [allocate, alloc_eq_none_iff.mpr h]

/-- Otherwise the new descriptor was not in use, and the others stay. -/
lemma allocate_of_not_full (h : ¬ p.table.Full) (file : OpenFile γ) :
    ∃ (fd : ℕ) (table : DescriptorTable (OpenFile γ)),
      p.allocate file = ((fd : ℤ), { p with table := table }) ∧
        Allocated p.table file fd table := by
  obtain ⟨fd, table, halloc⟩ := exists_alloc h file
  refine ⟨fd, table, ?_, alloc_spec halloc⟩
  simp only [allocate, halloc]

/-- `accept` fails with `EMFILE` when the table is full. -/
lemma accept_of_full (hsocket : p.fileAt fd = some .listener) (h : p.table.Full) :
    p.accept fd = (-1, { p with errno := .EMFILE }) := by
  simp only [accept, hsocket, if_pos h]

/-- Otherwise it takes the first connection of the queue. -/
lemma accept_of_not_full (hsocket : p.fileAt fd = some .listener) (h : ¬ p.table.Full)
    (hpending : p.pending = c :: pending) :
    p.accept fd = { p with pending }.allocate (.connection c) := by
  simp only [accept, hsocket, if_neg h, hpending]

/-- `close` of an open descriptor takes it out of the table. -/
lemma table_close (h : p.fileAt fd = some file) :
    (p.close fd).table = p.table.close fd.toNat := by
  cases file <;> simp only [close, h]

/-- `close` leaves the other descriptors as they are. -/
lemma fileAt_close_of_ne (h : n ≠ fd) : (p.close fd).fileAt n = p.fileAt n := by
  unfold fileAt
  split
  · next hn =>
    cases hfile : p.fileAt fd with
    | none => simp only [close, hfile]
    | some file =>
      have hfd := nonneg_of_fileAt hfile
      rw [table_close hfile, file_close_of_ne (by omega)]
  · rfl

end Process

namespace Acceptor

open DescriptorTable Process

variable {γ : Type*} {a a' : Acceptor γ} {c : γ} {pending : List γ}

/-! ### The reserve -/

/-- The reserve is open. -/
def Held (a : Acceptor γ) : Prop := a.process.fileAt a.idleFd = some .path

/-- In every state the acceptor's socket is open, and the reserve is, or `idleFd_` is `-1`. -/
structure Inv (a : Acceptor γ) : Prop where
  socket : a.process.fileAt a.acceptSocket = some .listener
  idle : a.idleFd = -1 ∨ a.Held

/-- The state before a call from which an acceptor with its reserve recovers: with a full table
`/dev/null` can be opened; otherwise, without a callback, descriptor `0` is in use. -/
def CanRecover (a : Acceptor γ) : Prop :=
  (a.process.table.Full → a.process.resolves "/dev/null" = true) ∧
  (¬ a.process.table.Full → a.newConnectionCallback = false → (a.process.table.file 0).isSome)

instance (a : Acceptor γ) : Decidable a.CanRecover := by
  unfold CanRecover
  infer_instance

/-- An acceptor whose `idleFd_` is `-1` holds no reserve. -/
lemma not_held_of_eq (h : a.idleFd = -1) : ¬ a.Held := by
  rw [Held, h, fileAt_neg_one]
  nofun

/-- The reserve is held unless `idleFd_` is `-1`. -/
lemma Inv.held_iff (h : a.Inv) : a.Held ↔ a.idleFd ≠ -1 := by
  constructor
  · exact fun hheld heq => not_held_of_eq heq hheld
  · exact h.idle.resolve_left

/-- Whether it is held depends on `idleFd_` alone. -/
lemma Inv.held_congr (h : a.Inv) (h' : a'.Inv) (hidle : a'.idleFd = a.idleFd) :
    a'.Held ↔ a.Held := by
  rw [h'.held_iff, h.held_iff, hidle]

/-- `idleFd_` is an open descriptor exactly if the reserve is held. -/
lemma Inv.isSome_iff (h : a.Inv) : (a.process.fileAt a.idleFd).isSome ↔ a.Held := by
  constructor
  · intro hopen
    refine h.held_iff.mpr fun hlost => ?_
    rw [hlost, fileAt_neg_one] at hopen
    cases hopen
  · exact fun hheld => Option.isSome_of_eq_some hheld

/-- The reserve is not the socket. -/
lemma Held.ne_socket (h : a.Held) (hinv : a.Inv) : a.acceptSocket ≠ a.idleFd := by
  intro heq
  have hsocket := hinv.socket
  rw [heq, h] at hsocket
  cases hsocket

/-- A call where descriptors are left: the connection gets the lowest of them. -/
lemma handleRead_of_not_full (hinv : a.Inv) (hfull : ¬ a.process.table.Full)
    (hpending : a.process.pending = c :: pending) :
    ∃ (fd : ℕ) (table : DescriptorTable (OpenFile γ)),
      Allocated a.process.table (.connection c) fd table ∧
      a.handleRead = some (if a.newConnectionCallback = true then
        { a with
          process := { a.process with pending := pending, table := table }
          delivered := a.delivered ++ [(fd : ℤ)] }
        else
          { a with process := Sockets.close { a.process with pending, table } fd }) := by
  obtain ⟨fd, table, halloc, hspec⟩ :=
    allocate_of_not_full (p := { a.process with pending := pending }) hfull (.connection c)
  refine ⟨fd, table, hspec, ?_⟩
  have haccept : Sockets.accept a.process a.acceptSocket =
      some ((fd : ℤ), { a.process with pending := pending, table := table }) := by
    rw [Sockets.accept, accept_of_not_full hinv.socket hfull hpending, halloc]
    exact if_neg fun h => absurd h.1 (by simp)
  rw [handleRead, haccept]
  simp only [Option.bind_eq_bind, Option.bind_some, if_pos (Int.natCast_nonneg fd)]
  split <;> rfl

/-- With a full table `accept` fails, and the reserve comes in. -/
lemma handleRead_of_full (hinv : a.Inv) (hfull : a.process.table.Full) :
    a.handleRead =
      let p := Process.close { a.process with errno := .EMFILE } a.idleFd
      let r := p.accept a.acceptSocket
      let r' := (r.2.close r.1).openPath "/dev/null"
      some { a with process := r'.2, idleFd := r'.1 } := by
  have haccept : Sockets.accept a.process a.acceptSocket =
      some (-1, { a.process with errno := .EMFILE }) := by
    rw [Sockets.accept, accept_of_full hinv.socket hfull]
    rfl
  rw [handleRead, haccept]
  rfl

/-- With the reserve the connection is taken off the queue and closed. -/
lemma handleRead_of_held (hinv : a.Inv) (hfull : a.process.table.Full) (hheld : a.Held)
    (hpending : a.process.pending = c :: pending) :
    a.handleRead = some (if a.process.resolves "/dev/null" = true then
      { a with
        process := { a.process with
          errno := .EMFILE
          pending := pending
          closed := a.process.closed ++ [c] } }
      else
        { a with
          process := { a.process with
            table := a.process.table.close a.idleFd.toNat
            errno := .ENOENT
            pending := pending
            closed := a.process.closed ++ [c] }
          idleFd := -1 }) := by
  have hidle := isSome_of_fileAt hheld
  have hnonneg := nonneg_of_fileAt hheld
  have hcast : ((a.idleFd.toNat : ℕ) : ℤ) = a.idleFd := Int.toNat_of_nonneg hnonneg
  have hroom := not_full_close hidle
  obtain ⟨table, halloc, hspec⟩ := alloc_close_of_full hfull hidle (.connection c)
  obtain ⟨table', halloc', hspec'⟩ := alloc_close_of_full hfull hidle .path
  obtain rfl : table' = a.process.table := reopen_eq hspec' (file_of_fileAt hheld)
  -- The descriptor that is closed is the one that `accept` and `open` get.
  have hclose : Process.close { a.process with errno := .EMFILE } a.idleFd =
      { a.process with table := a.process.table.close a.idleFd.toNat, errno := .EMFILE } := by
    have hfile : Process.fileAt { a.process with errno := .EMFILE } a.idleFd = some .path := hheld
    simp only [Process.close, hfile]
  have haccept : Process.accept
      { a.process with table := a.process.table.close a.idleFd.toNat, errno := .EMFILE }
      a.acceptSocket = (a.idleFd, { a.process with table, errno := .EMFILE, pending }) := by
    have hsocket : Process.fileAt
        { a.process with table := a.process.table.close a.idleFd.toNat, errno := .EMFILE }
        a.acceptSocket = some .listener := by
      rw [← hclose, fileAt_close_of_ne (hheld.ne_socket hinv)]
      exact hinv.socket
    rw [accept_of_not_full hsocket hroom hpending, allocate]
    simp only [halloc, hcast]
  have hcloseNew : Process.close { a.process with table, errno := .EMFILE, pending } a.idleFd =
      { a.process with
        table := a.process.table.close a.idleFd.toNat
        errno := .EMFILE
        pending
        closed := a.process.closed ++ [c] } := by
    have hfile : Process.fileAt { a.process with table, errno := .EMFILE, pending } a.idleFd =
        some (.connection c) := by
      rw [← hcast, fileAt_natCast]
      exact hspec.file_self
    simp only [Process.close, hfile, hspec.close_eq]
  rw [handleRead_of_full hinv hfull]
  simp only [hclose, haccept, hcloseNew, openPath, hroom, false_or]
  by_cases hresolves : a.process.resolves "/dev/null" = true
  · simp only [if_pos hresolves, allocate, halloc', hcast]
  · simp only [if_neg hresolves]

/-- Without the reserve nothing happens. -/
lemma handleRead_of_lost (hinv : a.Inv) (hfull : a.process.table.Full) (hlost : a.idleFd = -1) :
    a.handleRead = some { a with process := { a.process with errno := .EMFILE } } := by
  have hclose : ∀ p : Process γ, p.close (-1) = { p with errno := .EBADF } := by
    intro p
    simp only [Process.close, fileAt_neg_one]
  have haccept : Process.accept { a.process with errno := .EBADF } a.acceptSocket =
      (-1, { a.process with errno := .EMFILE }) :=
    accept_of_full (p := { a.process with errno := .EBADF }) hinv.socket hfull
  rw [handleRead_of_full hinv hfull, hlost]
  simp only [hclose, haccept, openPath, hfull, true_or, if_true]
  rw [allocate_of_full (p := { a.process with errno := .EBADF }) hfull]

/-- What is left of the socket and of the reserve when a descriptor has been allocated. -/
lemma Inv.of_allocated {k : ℕ} {file : OpenFile γ} (hinv : a.Inv)
    (hsocket : a'.acceptSocket = a.acceptSocket) (hidle : a'.idleFd = a.idleFd)
    (h : Allocated a.process.table file k a'.process.table) : a'.Inv := by
  refine ⟨?_, ?_⟩
  · rw [hsocket]
    exact fileAt_of_allocated h hinv.socket rfl
  · rw [Held, hidle]
    exact hinv.idle.imp_right fun hheld => fileAt_of_allocated h hheld rfl

/-- If the reserve is open when the table is full, a call is what the reserve is for. -/
lemma recovers_of_full (hinv : a.Inv) (hfull : a.process.table.Full)
    (hpending : a.process.pending = c :: pending) :
    ∃ a', a.handleRead = some a' ∧ a'.Inv ∧
      (a'.Held ↔ a.Held ∧ a.process.resolves "/dev/null" = true) ∧
      (Recovers a a' ↔ a.Held ∧ a.process.resolves "/dev/null" = true) := by
  by_cases hheld : a.Held
  · have hcall := handleRead_of_held hinv hfull hheld hpending
    by_cases hresolves : a.process.resolves "/dev/null" = true
    · rw [if_pos hresolves] at hcall
      refine ⟨_, hcall, ⟨hinv.socket, Or.inr hheld⟩, ?_, ?_⟩
      · exact iff_of_true hheld ⟨hheld, hresolves⟩
      · refine iff_of_true ⟨⟨c, hpending, Or.inr rfl⟩, ?_, le_rfl⟩ ⟨hheld, hresolves⟩
        exact Option.isSome_of_eq_some hheld
    · rw [if_neg hresolves] at hcall
      refine ⟨_, hcall, ⟨?_, Or.inl rfl⟩, ?_, ?_⟩
      · have hsocket := fileAt_close_of_ne (hheld.ne_socket hinv) (p := a.process)
        rw [hinv.socket] at hsocket
        rw [← hsocket]
        exact fileAt_of_table (table_close hheld).symm
      · exact iff_of_false (not_held_of_eq rfl) fun h => hresolves h.2
      · refine iff_of_false ?_ fun h => hresolves h.2
        rintro ⟨-, hidle, -⟩
        rw [fileAt_neg_one] at hidle
        cases hidle
  · have hlost := (not_iff_not.mpr hinv.held_iff).mp hheld
    rw [not_ne_iff] at hlost
    refine ⟨_, handleRead_of_lost hinv hfull hlost, ⟨hinv.socket, Or.inl hlost⟩, ?_, ?_⟩
    · exact iff_of_false (not_held_of_eq hlost) fun h => hheld h.1
    · refine iff_of_false ?_ fun h => hheld h.1
      rintro ⟨-, hidle, -⟩
      dsimp only at hidle
      rw [hlost, fileAt_neg_one] at hidle
      cases hidle

/-- If there is room, the reserve has to be open already, and the connection is closed unless it
got descriptor `0` and there is no callback. -/
lemma recovers_of_not_full (hinv : a.Inv) (hfull : ¬ a.process.table.Full)
    (hpending : a.process.pending = c :: pending) :
    ∃ a', a.handleRead = some a' ∧ a'.Inv ∧ (a'.Held ↔ a.Held) ∧
      (Recovers a a' ↔ a.Held ∧
        (a.newConnectionCallback = false → (a.process.table.file 0).isSome)) := by
  obtain ⟨fd, table, hspec, hcall⟩ := handleRead_of_not_full hinv hfull hpending
  by_cases hcallback : a.newConnectionCallback = true
  · rw [if_pos hcallback] at hcall
    have hinv' : Acceptor.Inv { a with
        process := { a.process with pending := pending, table := table }
        delivered := a.delivered ++ [(fd : ℤ)] } := hinv.of_allocated rfl rfl hspec
    have hsame : _ ↔ a.Held := hinv.held_congr hinv' rfl
    refine ⟨_, hcall, hinv', hsame, ?_⟩
    constructor
    · rintro ⟨-, hidle, -⟩
      refine ⟨hsame.mp (hinv'.isSome_iff.mp hidle), fun hnone => ?_⟩
      rw [hcallback] at hnone
      cases hnone
    · rintro ⟨hheld, -⟩
      refine ⟨⟨c, hpending, Or.inl ⟨fd, rfl, ?_⟩⟩, hinv'.isSome_iff.mpr (hsame.mpr hheld), ?_⟩
      · rw [fileAt_natCast]
        exact hspec.file_self
      · dsimp only
        rw [hspec.count_eq, List.length_append, List.length_singleton]
        omega
  · rw [if_neg hcallback] at hcall
    by_cases hfd : fd = 0
    · -- `sockets::close` does nothing for descriptor `0`.
      subst hfd
      have hinv' : Acceptor.Inv { a with
          process := { a.process with pending := pending, table := table } } :=
        hinv.of_allocated rfl rfl hspec
      refine ⟨_, hcall, hinv', hinv.held_congr hinv' rfl, ?_⟩
      refine iff_of_false ?_ ?_
      · rintro ⟨⟨c', -, ⟨connfd, hdelivered, -⟩ | hclosed⟩, -, -⟩
        · have hlen := congrArg List.length hdelivered
          simp at hlen
        · have hlen := congrArg List.length hclosed
          simp [Sockets.close] at hlen
      · rintro ⟨-, hzero⟩
        have hused := hzero (Bool.eq_false_iff.mpr hcallback)
        rw [hspec.free] at hused
        cases hused
    · have hpos : (0 : ℤ) < fd := by omega
      have hclose : Sockets.close { a.process with pending := pending, table := table } fd =
          { a.process with pending := pending, closed := a.process.closed ++ [c] } := by
        have hfile : Process.fileAt { a.process with pending := pending, table := table } fd =
            some (.connection c) := by
          rw [fileAt_natCast]
          exact hspec.file_self
        rw [Sockets.close, if_pos hpos]
        simp only [Process.close, hfile, Int.toNat_natCast, hspec.close_eq]
      rw [hclose] at hcall
      refine ⟨_, hcall, ⟨hinv.socket, hinv.idle⟩, Iff.rfl, ?_⟩
      constructor
      · rintro ⟨-, hidle, -⟩
        exact ⟨hinv.isSome_iff.mp hidle, fun _ => hspec.lowest 0 (Nat.pos_of_ne_zero hfd)⟩
      · rintro ⟨hheld, -⟩
        exact ⟨⟨c, hpending, Or.inr rfl⟩, hinv.isSome_iff.mpr hheld, le_rfl⟩

/-- One call: it is what the reserve is for exactly if the reserve is open before it and the state
is one to recover from. -/
lemma handleRead_recovers (hinv : a.Inv) (hpending : a.process.pending ≠ []) :
    ∃ a', a.handleRead = some a' ∧ a'.Inv ∧ (a'.Held → a.Held) ∧
      (Recovers a a' ↔ a.Held ∧ a.CanRecover) := by
  obtain ⟨c, pending, hpending⟩ := List.exists_cons_of_ne_nil hpending
  by_cases hfull : a.process.table.Full
  · obtain ⟨a', ha', hinv', hheld', hrecovers⟩ := recovers_of_full hinv hfull hpending
    refine ⟨a', ha', hinv', fun h => (hheld'.mp h).1, hrecovers.trans (and_congr_right' ?_)⟩
    exact ⟨fun h => ⟨fun _ => h, fun hnot => absurd hfull hnot⟩, fun h => h.1 hfull⟩
  · obtain ⟨a', ha', hinv', hheld', hrecovers⟩ := recovers_of_not_full hinv hfull hpending
    refine ⟨a', ha', hinv', hheld'.mp, hrecovers.trans (and_congr_right' ?_)⟩
    exact ⟨fun h => ⟨fun h' => absurd h' hfull, fun _ => h⟩, fun h => h.2 hfull⟩

/-! ### Runs -/

/-- The constructor opens its reserve if there are two free descriptors, one for the socket, and
`dev/null` resolves. -/
def IdleReserved (p : Process γ) : Prop :=
  p.table.count + 2 ≤ p.table.limit ∧ p.resolves "dev/null" = true

/-- The constructor, and when it leaves a reserve. -/
lemma new_spec {p : Process γ} (h : new p = some a) : a.Inv ∧ (a.Held ↔ IdleReserved p) := by
  by_cases hfull : p.table.Full
  · rw [new, socket, allocate_of_full (p := { p with pending := [] }) hfull] at h
    cases h
  · obtain ⟨fd, table, halloc, hspec⟩ :=
      allocate_of_not_full (p := { p with pending := [] }) hfull .listener
    have hnonneg : ¬ (fd : ℤ) < 0 := by omega
    simp only [new, socket, halloc, if_neg hnonneg] at h
    obtain rfl := Option.some.inj h
    have hcount := hspec.count_eq
    have hlimit := hspec.limit
    dsimp only at hcount hlimit
    by_cases hroom : table.Full
    · have hopen : Process.openPath { p with pending := [], table := table } "dev/null" =
          (-1, { p with pending := [], table := table, errno := .EMFILE }) := by
        rw [openPath, if_pos (Or.inl hroom),
          allocate_of_full (p := { p with pending := [], table := table }) hroom]
      rw [hopen]
      refine ⟨⟨(fileAt_natCast _ _).trans hspec.file_self, Or.inl rfl⟩, ?_⟩
      refine iff_of_false (not_held_of_eq rfl) fun hreserved => ?_
      have hcard := full_iff.mp hroom
      have hfree := hreserved.1
      omega
    · have hfree : p.table.count + 2 ≤ p.table.limit := by
        have hcard := mt full_iff.mpr hroom
        have hle := table.count_le
        omega
      by_cases hresolves : p.resolves "dev/null" = true
      · obtain ⟨idle, table', halloc', hspec'⟩ :=
          allocate_of_not_full (p := { p with pending := [], table := table }) hroom .path
        rw [openPath, if_pos (Or.inr hresolves), halloc']
        have hheld : Process.fileAt { p with pending := [], table := table' } idle =
            some .path := by
          rw [fileAt_natCast]
          exact hspec'.file_self
        refine ⟨⟨?_, Or.inr hheld⟩, iff_of_true hheld ⟨hfree, hresolves⟩⟩
        exact fileAt_of_allocated hspec' ((fileAt_natCast _ _).trans hspec.file_self) rfl
      · rw [openPath, if_neg (by simp [hroom, hresolves])]
        refine ⟨⟨(fileAt_natCast _ _).trans hspec.file_self, Or.inl rfl⟩, ?_⟩
        exact iff_of_false (not_held_of_eq rfl) fun hreserved => hresolves hreserved.2

/-- All but the calls of `handleRead` leave the socket and the reserve as they are. -/
lemma step_quiet {l : AcceptorLabel γ} {out : List (Acceptor γ × Acceptor γ)} (hinv : a.Inv)
    (hpre : (acceptorMachine γ).pre a l) (hstep : (acceptorMachine γ).step a l = some (a', out))
    (hl : l ≠ .handleRead) : out = [] ∧ a'.Inv ∧ a'.idleFd = a.idleFd := by
  cases l with
  | handleRead => exact absurd rfl hl
  | listen | setNewConnectionCallback | arrive | chdir =>
    obtain ⟨rfl, rfl⟩ := Prod.mk.inj (Option.some.inj hstep)
    exact ⟨rfl, ⟨hinv.socket, hinv.idle⟩, rfl⟩
  | openOther =>
    obtain ⟨rfl, rfl⟩ := Prod.mk.inj (Option.some.inj hstep)
    refine ⟨rfl, ?_, rfl⟩
    by_cases hfull : a.process.table.Full
    · rw [allocate_of_full hfull]
      exact ⟨hinv.socket, hinv.idle⟩
    · obtain ⟨fd, table, halloc, hspec⟩ := allocate_of_not_full hfull (.other (γ := γ))
      rw [halloc]
      exact hinv.of_allocated rfl rfl hspec
  | closeOther fd =>
    obtain ⟨rfl, rfl⟩ := Prod.mk.inj (Option.some.inj hstep)
    refine ⟨rfl, ⟨?_, ?_⟩, rfl⟩
    · exact (fileAt_close_of_ne hpre.1.symm).trans hinv.socket
    · exact hinv.idle.imp_right fun hheld => (fileAt_close_of_ne hpre.2.symm).trans hheld

/-- Where every call so far did what the reserve is for, the reserve is still open if it was at
first; and it is never open again once it has been lost. -/
lemma run_recovers {a₀ : Acceptor γ} {t : List (Acceptor γ × Acceptor γ)} (hinv₀ : a₀.Inv)
    (hrun : (acceptorMachine γ).Run a₀ t a) :
    a.Inv ∧ (a.Held → a₀.Held) ∧ (a₀.Held → (∀ r ∈ t, Recovers r.1 r.2) → a.Held) ∧
      ((∀ r ∈ t, Recovers r.1 r.2) ↔ ∀ r ∈ t, a₀.Held ∧ r.1.CanRecover) := by
  refine hrun.invariant (fun t a => a.Inv ∧ (a.Held → a₀.Held) ∧
    (a₀.Held → (∀ r ∈ t, Recovers r.1 r.2) → a.Held) ∧
      ((∀ r ∈ t, Recovers r.1 r.2) ↔ ∀ r ∈ t, a₀.Held ∧ r.1.CanRecover)) ?_ ?_
  · exact ⟨hinv₀, id, fun h _ => h, by simp⟩
  · rintro t a l a' out ⟨hinv, hback, hkept, hall⟩ hpre hstep
    by_cases hl : l = .handleRead
    · subst hl
      obtain ⟨a₁, ha₁, hinv', hheld', hrecovers⟩ := handleRead_recovers hinv hpre.2
      obtain ⟨a₂, ha₂, heq⟩ := Option.map_eq_some_iff.mp hstep
      obtain rfl := Option.some.inj (ha₁.symm.trans ha₂)
      obtain ⟨rfl, rfl⟩ := Prod.mk.inj heq
      simp only [List.forall_mem_append, List.forall_mem_singleton, hrecovers]
      refine ⟨hinv', fun h => hback (hheld' h), ?_, ?_⟩
      · rintro - ⟨-, hlast⟩
        exact hinv'.isSome_iff.mp (hrecovers.mpr hlast).2.1
      · rw [hall]
        constructor
        · exact fun h => ⟨h.1, hback h.2.1, h.2.2⟩
        · exact fun h => ⟨h.1, hkept h.2.1 (hall.mpr h.1), h.2.2⟩
    · obtain ⟨rfl, hinv', hidle⟩ := step_quiet hinv hpre hstep hl
      rw [List.append_nil, hinv.held_congr hinv' hidle]
      exact ⟨hinv', hback, hkept, hall⟩

/-- For every run of an acceptor from its constructor on: all calls of `handleRead` do what the
reserve is for exactly if the constructor could open it and every call finds a state to recover
from. -/
theorem handleRead_recovers_iff {p : Process γ} {a₀ : Acceptor γ}
    {t : List (Acceptor γ × Acceptor γ)} (hnew : new p = some a₀)
    (hrun : (acceptorMachine γ).Run a₀ t a) :
    (∀ r ∈ t, Recovers r.1 r.2) ↔ ∀ r ∈ t, IdleReserved p ∧ r.1.CanRecover := by
  obtain ⟨hinv₀, hheld₀⟩ := new_spec hnew
  rw [← hheld₀]
  exact (run_recovers hinv₀ hrun).2.2.2

/-- No reachable call aborts the program. -/
theorem exists_handleRead {p : Process γ} {a₀ : Acceptor γ} {t : List (Acceptor γ × Acceptor γ)}
    (hnew : new p = some a₀) (hrun : (acceptorMachine γ).Run a₀ t a)
    (hpending : a.process.pending ≠ []) : ∃ a', a.handleRead = some a' := by
  obtain ⟨a', ha', -⟩ := handleRead_recovers (run_recovers (new_spec hnew).1 hrun).1 hpending
  exact ⟨a', ha'⟩

/-- A process that may have five descriptors open and has opened three. -/
def standardProcess (resolves : String → Bool) : Process ℕ where
  table.limit := 5
  table.file fd := if fd < 3 then some .other else none
  table.file_eq_none fd hfd := if_neg (by omega)
  errno := .EAGAIN
  resolves := resolves
  pending := []
  closed := []

/-- The reserve takes the last descriptor and lets one connection in and out again; the next one is
handed on when another descriptor has been closed. -/
theorem handleRead_recovers_iff_two : ∃ a₀ t a, new (standardProcess fun _ => true) = some a₀ ∧
    (acceptorMachine ℕ).Run a₀ t a ∧ t.length = 2 ∧ ∀ r ∈ t, Recovers r.1 r.2 := by
  have hnew : (new (standardProcess fun _ => true)).isSome := by decide
  obtain ⟨t, a, hrun, hlen, hall⟩ := (acceptorMachine ℕ).exists_run_of_exec
    ((new (standardProcess fun _ => true)).get (by decide))
    [.setNewConnectionCallback true, .listen, .arrive 0, .handleRead, .closeOther 2, .arrive 1,
      .handleRead]
    (fun _ t => t.length = 2 ∧ ∀ r ∈ t, r.1.CanRecover) (by decide)
  have hreserved : IdleReserved (standardProcess fun _ => true) := ⟨by decide, rfl⟩
  exact ⟨_, t, a, (Option.some_get hnew).symm, hrun, hlen,
    (handleRead_recovers_iff (Option.some_get hnew).symm hrun).mpr
      fun r hr => ⟨hreserved, hall r hr⟩⟩

/-- In a directory without `dev/null` there is no reserve: when the table is full, the connection
stays in the queue. -/
theorem handleRead_not_recovers : ∃ a₀ t a,
    new (standardProcess fun path => path == "/dev/null") = some a₀ ∧
    (acceptorMachine ℕ).Run a₀ t a ∧ ∃ r ∈ t, r.2.process.pending = r.1.process.pending ∧
      r.2.idleFd = -1 ∧ ¬ Recovers r.1 r.2 := by
  have hnew : (new (standardProcess fun path => path == "/dev/null")).isSome := by decide
  obtain ⟨t, a, hrun, r, hr, hpending, hidle⟩ := (acceptorMachine ℕ).exists_run_of_exec
    ((new (standardProcess fun path => path == "/dev/null")).get (by decide))
    [.setNewConnectionCallback true, .listen, .arrive 0, .handleRead, .arrive 1, .handleRead]
    (fun _ t => ∃ r ∈ t, r.2.process.pending = r.1.process.pending ∧ r.2.idleFd = -1) (by decide)
  refine ⟨_, t, a, (Option.some_get hnew).symm, hrun, r, hr, hpending, hidle, ?_⟩
  rintro ⟨⟨c, htaken, -⟩, -, -⟩
  rw [hpending] at htaken
  simp at htaken

end Acceptor

end MuduoServer
