import MuduoServer.Tcp.Basic

/-!
# A server, its loops and its connections

The class `TcpServer` of `net/Tcp/TcpServer.cc` with any number of connections and io loops.  Loop
`0` is the base loop, loop `i + 1` the one of the `i`-th io thread.  A connection is known by its
place in the list of all connections ever made; of its data the server uses the name, the loop and
`state_`.

The base loop runs `newConnection` and `removeConnectionInLoop`.  Neither is one step: the table is
changed first, and then the connection is handed to its own loop, while the other loops go on.
`runInLoop` calls the task at once when the thread is the one of the loop, and queues it when it is
not.  The events and the tasks of a loop that do not concern the server's table are left open: a
connection that is up may be closed by its loop at any moment.
-/

namespace MuduoServer

/-! ### Addresses and names -/

/-- The conversions `%d` and `%ld` of a number that is not negative. -/
def decimal (n : ℕ) : List Char := Nat.toDigits 10 n

/-- `snprintf` with the text that the format asks for: what does not fit before the terminating
zero is cut off. -/
def snprintf (size : ℕ) (text : List Char) : List Char := text.take (size - 1)

/-- `sockaddr_in`: the four bytes of the address and the port, in host order. -/
structure InetAddress where
  byte₀ : UInt8
  byte₁ : UInt8
  byte₂ : UInt8
  byte₃ : UInt8
  port : UInt16
  deriving DecidableEq, Repr

namespace InetAddress

/-- `inet_ntop(AF_INET, ..)`: the dotted quad. -/
def inetNtop (a : InetAddress) : List Char :=
  decimal a.byte₀.toNat ++ '.' :: decimal a.byte₁.toNat ++ '.' :: decimal a.byte₂.toNat ++
    '.' :: decimal a.byte₃.toNat

/-- `sockets::toIpPort` into a buffer of `size` bytes: the port follows the address directly. -/
def toIpPortBuf (a : InetAddress) (size : ℕ) : List Char :=
  a.inetNtop ++ snprintf (size - a.inetNtop.length) (decimal a.port.toNat)

/-- `InetAddress::toIpPort`. -/
def toIpPort (a : InetAddress) : List Char := a.toIpPortBuf 64

end InetAddress

/-- A number below `10 ^ k` has at most `k` digits. -/
lemma decimal_length_le {n k : ℕ} (hk : 0 < k) (h : n < 10 ^ k) : (decimal n).length ≤ k :=
  (Nat.length_toDigits_le_iff (by decide) hk).mpr h

/-- Different numbers have different digits. -/
lemma decimal_injective : Function.Injective decimal := by
  intro m n h
  have hm : Nat.ofDigitChars 10 (decimal m) 0 = m := Nat.ofDigitChars_ten_toDigits
  have hn : Nat.ofDigitChars 10 (decimal n) 0 = n := Nat.ofDigitChars_ten_toDigits
  rw [← hm, ← hn, h]

/-- What fits with its terminator is not truncated. -/
lemma snprintf_eq {size : ℕ} {text : List Char} (h : text.length < size) :
    snprintf size text = text := by
  apply List.take_of_length_le
  omega

/-- A dotted address has at most 15 characters. -/
lemma InetAddress.inetNtop_length_le (a : InetAddress) : a.inetNtop.length ≤ 15 := by
  have hbyte : ∀ b : UInt8, (decimal b.toNat).length ≤ 3 := fun b =>
    decimal_length_le (by decide) (lt_trans b.toNat_lt (by decide))
  have h₀ := hbyte a.byte₀
  have h₁ := hbyte a.byte₁
  have h₂ := hbyte a.byte₂
  have h₃ := hbyte a.byte₃
  simp only [inetNtop, List.length_append, List.length_cons]
  omega

/-- An address and its port need no more than twenty characters. -/
lemma InetAddress.toIpPort_length_le (a : InetAddress) : a.toIpPort.length ≤ 20 := by
  have haddr := a.inetNtop_length_le
  have hport : (decimal a.port.toNat).length ≤ 5 :=
    decimal_length_le (by decide) (lt_trans a.port.toNat_lt (by decide))
  have hcut : (snprintf (64 - a.inetNtop.length) (decimal a.port.toNat)).length ≤ 5 :=
    (List.length_take_le' _ _).trans hport
  simp only [toIpPort, toIpPortBuf, List.length_append]
  omega

/-! ### The server -/

/-- What the constructor and `setThreadNum` fix. -/
structure ServerConfig where
  listenAddr : InetAddress
  name : List Char
  numThreads : ℕ
  deriving DecidableEq, Repr

namespace ServerConfig

/-- The text of the format `"-%s#%ld"` in `TcpServer::newConnection`. -/
def suffix (cfg : ServerConfig) (id : ℕ) : List Char :=
  '-' :: cfg.listenAddr.toIpPort ++ '#' :: decimal id

/-- The name of the connection with number `id`. -/
def connName (cfg : ServerConfig) (id : ℕ) : List Char := cfg.name ++ snprintf 64 (cfg.suffix id)

/-- The number of a connection can be read off the text. -/
lemma suffix_injective (cfg : ServerConfig) : Function.Injective cfg.suffix := by
  intro m n h
  simp only [suffix, List.cons_append, List.cons.injEq, true_and, List.append_cancel_left_eq] at h
  exact decimal_injective h

/-- No name is truncated: sixty-three characters are enough for every `int64_t`. -/
lemma connName_eq (cfg : ServerConfig) {id : ℕ} (h : id < 2 ^ 63) :
    cfg.connName id = cfg.name ++ cfg.suffix id := by
  have haddr := cfg.listenAddr.toIpPort_length_le
  have hid : (decimal id).length ≤ 19 := decimal_length_le (by decide) (lt_trans h (by decide))
  have hfits : (cfg.suffix id).length < 64 := by
    simp only [suffix, List.cons_append, List.length_cons, List.length_append]
    omega
  rw [connName, snprintf_eq hfits]

end ServerConfig

/-- A connection, as far as the server is concerned. -/
structure ServerConn where
  name : List Char
  loop : ℕ
  state : StateE
  deriving DecidableEq, Repr

/-- The tasks of the server; each is bound to its connection. -/
inductive ServerTask where
  | connectEstablished (c : ℕ)
  | removeConnectionInLoop (c : ℕ)
  | connectDestroyed (c : ℕ)
  deriving DecidableEq, Repr

/-- The connection a task is bound to. -/
def ServerTask.conn : ServerTask → ℕ
  | .connectEstablished c | .removeConnectionInLoop c | .connectDestroyed c => c

/-- A function of the server that the base loop is in, past its access to the table. -/
inductive ServerFrame where
  | idle
  | newConnection (c : ℕ)
  | removeConnectionInLoop (c : ℕ)
  deriving DecidableEq, Repr

/-- The connection such a function works on. -/
def ServerFrame.conn? : ServerFrame → Option ℕ
  | .idle => none
  | .newConnection c | .removeConnectionInLoop c => some c

/-- The server, the queues of all loops, and all connections ever made. -/
structure TcpServer where
  /-- `next_` of the `EventLoopThreadPool`. -/
  next : ℕ
  nextConnId : ℕ
  connections : List Char → Option ℕ
  conns : List ServerConn
  pendingFunctors : ℕ → List ServerTask
  /-- The local `functors` of each loop's `doPendingFunctors`, less those already called. -/
  functors : ℕ → List ServerTask
  frame : ServerFrame

/-- What is seen of the server. -/
inductive ServerEvent where
  /-- `connections_[name] = conn`, and what the table held there before. -/
  | inserted (c : ℕ) (name : List Char) (old : Option ℕ)
  /-- `connectEstablished` has run on loop `l`. -/
  | established (c l : ℕ)
  /-- `closeCallback_` has been called on loop `l`. -/
  | closed (c l : ℕ)
  /-- `removeConnectionInLoop` has erased the entry. -/
  | erased (c : ℕ)
  /-- `connectDestroyed` has been queued on loop `l`. -/
  | queued (c l : ℕ)
  /-- `connectDestroyed` has run on loop `l`. -/
  | destroyed (c l : ℕ)
  deriving DecidableEq, Repr

/-- The connection an event is about. -/
def ServerEvent.conn : ServerEvent → ℕ
  | .inserted c _ _ | .established c _ | .closed c _ | .erased c | .queued c _ | .destroyed c _ => c

/-- The steps of the loops. -/
inductive ServerAct where
  /-- `newConnection` on the base loop, up to the entry in the table. -/
  | newConnection
  /-- The rest of `newConnection` or of `removeConnectionInLoop`. -/
  | resume
  /-- `doPendingFunctors` of loop `l`, up to the swap. -/
  | swap (l : ℕ)
  /-- The next functor of loop `l`. -/
  | call (l : ℕ)
  /-- `forceClose` of a connection, on any thread. -/
  | forceClose (c : ℕ)
  /-- `handleClose` of a connection, on its loop. -/
  | handleClose (c : ℕ)
  deriving DecidableEq, Repr

namespace TcpServer

/-- The constructor and `start()`. -/
def new : TcpServer where
  next := 0
  nextConnId := 1
  connections _ := none
  conns := []
  pendingFunctors _ := []
  functors _ := []
  frame := .idle

/-- All tasks that loop `l` has still to call. -/
def waiting (s : TcpServer) (l : ℕ) : List ServerTask := s.functors l ++ s.pendingFunctors l

/-- `EventLoopThreadPool::getNextLoop`: the loop, and `next_` after it. -/
def getNextLoop (numThreads next : ℕ) : ℕ × ℕ :=
  if numThreads = 0 then (0, next)
  else (next + 1, if next + 1 = numThreads then 0 else next + 1)

/-- `queueInLoop` of loop `l`. -/
def queueInLoop (s : TcpServer) (l : ℕ) (task : ServerTask) : TcpServer :=
  { s with
    pendingFunctors := Function.update s.pendingFunctors l (s.pendingFunctors l ++ [task]) }

/-- `setState`. -/
def setState (s : TcpServer) (c : ℕ) (r : ServerConn) (state : StateE) : TcpServer :=
  { s with conns := s.conns.set c { r with state := state } }

/-- `TcpConnection::connectEstablished` on loop `l`. -/
def connectEstablished (s : TcpServer) (l c : ℕ) : Option (TcpServer × List ServerEvent) :=
  match s.conns[c]? with
  | none => none
  | some r =>
    if r.loop = l ∧ r.state = .KConnecting then
      some (s.setState c r .KConnected, [.established c l])
    else none

/-- `TcpServer::removeConnectionInLoop` on loop `l`, up to `assert(n == 1)`. -/
def removeConnectionInLoop (s : TcpServer) (l c : ℕ) : Option (TcpServer × List ServerEvent) :=
  match s.conns[c]? with
  | none => none
  | some r =>
    if l = 0 ∧ (s.connections r.name).isSome then
      some ({ s with
        connections := Function.update s.connections r.name none
        frame := .removeConnectionInLoop c }, [.erased c])
    else none

/-- `TcpConnection::connectDestroyed` on loop `l`. -/
def connectDestroyed (s : TcpServer) (l c : ℕ) : Option (TcpServer × List ServerEvent) :=
  match s.conns[c]? with
  | none => none
  | some r =>
    if r.loop = l then
      some (s.setState c r (if r.state = .KConnected then .KDisconnected else r.state),
        [.destroyed c l])
    else none

/-- A task runs on loop `l`. -/
def run (s : TcpServer) (l : ℕ) : ServerTask → Option (TcpServer × List ServerEvent)
  | .connectEstablished c => s.connectEstablished l c
  | .removeConnectionInLoop c => s.removeConnectionInLoop l c
  | .connectDestroyed c => s.connectDestroyed l c

/-- `runInLoop` of loop `l`, called on the thread of loop `caller`. -/
def runInLoop (s : TcpServer) (caller l : ℕ) (task : ServerTask) :
    Option (TcpServer × List ServerEvent) :=
  if caller = l then s.run l task else some (s.queueInLoop l task, [])

/-- `TcpServer::newConnection`, up to the entry in the table. -/
def newConnection (cfg : ServerConfig) (s : TcpServer) : TcpServer × List ServerEvent :=
  let (ioLoop, next) := getNextLoop cfg.numThreads s.next
  let connName := cfg.connName s.nextConnId
  let conn := s.conns.length
  ({ s with
    next := next
    nextConnId := s.nextConnId + 1
    connections := Function.update s.connections connName (some conn)
    conns := s.conns ++ [⟨connName, ioLoop, .KConnecting⟩]
    frame := .newConnection conn }, [.inserted conn connName (s.connections connName)])

/-- The rest of the function the base loop is in. -/
def resume (s : TcpServer) : Option (TcpServer × List ServerEvent) :=
  match s.frame with
  | .idle => none
  | .newConnection c =>
    match s.conns[c]? with
    | none => none
    | some r => { s with frame := .idle }.runInLoop 0 r.loop (.connectEstablished c)
  | .removeConnectionInLoop c =>
    match s.conns[c]? with
    | none => none
    -- not `runInLoop`: also a connection of the base loop has to wait
    | some r => some ({ s with frame := .idle }.queueInLoop r.loop (.connectDestroyed c),
        [.queued c r.loop])

/-- `TcpConnection::forceClose`.  The task it posts may find the connection at any later moment,
which `handleClose` is free to do. -/
def forceClose (s : TcpServer) (c : ℕ) : Option (TcpServer × List ServerEvent) :=
  match s.conns[c]? with
  | none => none
  | some r =>
    if r.state = .KConnected ∨ r.state = .KDisconnecting then
      some (s.setState c r .KDisconnecting, [])
    else some (s, [])

/-- `TcpConnection::handleClose`, with `TcpServer::removeConnection` as `closeCallback_`. -/
def handleClose (s : TcpServer) (c : ℕ) : Option (TcpServer × List ServerEvent) :=
  match s.conns[c]? with
  | none => none
  | some r =>
    if r.state = .KConnected ∨ r.state = .KDisconnecting then
      ((s.setState c r .KDisconnected).runInLoop r.loop 0 (.removeConnectionInLoop c)).map
        fun p => (p.1, .closed c r.loop :: p.2)
    else none

/-- The base loop is not in the middle of a function of the server, or the loop is another one. -/
def Free (s : TcpServer) (l : ℕ) : Prop := l = 0 → s.frame = .idle

/-- When a step can be taken.  `nextConnId_` is an `int64_t`; a connection is closed by its own
loop, after it has been established and once only. -/
def pre (cfg : ServerConfig) (s : TcpServer) : ServerAct → Prop
  | .newConnection => s.frame = .idle ∧ s.nextConnId < 2 ^ 63
  | .resume => s.frame ≠ .idle
  | .swap l => l ≤ cfg.numThreads ∧ s.Free l ∧ s.functors l = []
  | .call l => s.Free l ∧ s.functors l ≠ []
  | .forceClose c => c < s.conns.length
  | .handleClose c => ∃ r ∈ s.conns[c]?, s.Free r.loop ∧
      (r.state = .KConnected ∨ r.state = .KDisconnecting)

/-- The effect of a step; `none` is a failed assertion. -/
def step (cfg : ServerConfig) (s : TcpServer) : ServerAct → Option (TcpServer × List ServerEvent)
  | .newConnection => some (s.newConnection cfg)
  | .resume => s.resume
  | .swap l =>
    some ({ s with
      functors := Function.update s.functors l (s.pendingFunctors l)
      pendingFunctors := Function.update s.pendingFunctors l [] }, [])
  | .call l =>
    match s.functors l with
    | [] => none
    | task :: rest => { s with functors := Function.update s.functors l rest }.run l task
  | .forceClose c => s.forceClose c
  | .handleClose c => s.handleClose c

instance (s : TcpServer) (l : ℕ) : Decidable (s.Free l) :=
  inferInstanceAs (Decidable (l = 0 → s.frame = .idle))

instance (cfg : ServerConfig) (s : TcpServer) (act : ServerAct) : Decidable (s.pre cfg act) := by
  unfold pre
  split <;> infer_instance

end TcpServer

/-- All interleavings of the base loop and the io loops. -/
def serverMachine (cfg : ServerConfig) : Machine TcpServer ServerAct ServerEvent where
  pre s act := s.pre cfg act
  step s act := s.step cfg act

instance (cfg : ServerConfig) (s : TcpServer) (act : ServerAct) :
    Decidable ((serverMachine cfg).pre s act) :=
  inferInstanceAs (Decidable (s.pre cfg act))

end MuduoServer
