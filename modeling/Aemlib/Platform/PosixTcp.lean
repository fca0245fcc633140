import Aemlib.Behaviour.Handshake
import Aemlib.Environment

/-!
# The TCP transport (`examples/posix_tcp_transport.c`)

A transport over a non-blocking socket. Connecting takes several calls: the first opens a socket and
starts the connect, the next ones ask whether it is done. The system behind the socket calls is a
parameter; of it nothing is assumed but that `recv` and `send` keep to the length they are given.

A descriptor is a number that the system gives out again once it is closed, so a socket must be
closed once and not used behind that. Neither the transport nor the client alone guarantees this: it
is because the client connects its transport only when it has closed it before that no socket is
lost (`sockets_disciplined`).
-/

namespace Aemlib

open Machine

namespace PosixTcp

/-! ## The system -/

/-- The values of `errno` that the transport tells apart. -/
inductive Errno where
  | inProgress
  | again
  | wouldBlock
  | other
  deriving DecidableEq, Repr

/-- The calls of the system, over its state `κ` and with addresses `α`. A failing call is an
`Except.error`; `socket` and `poll` are answered by a number as they are. -/
structure System (κ α : Type) where
  /-- The first address of a host; nothing if the call fails or finds none. -/
  getaddrinfo : κ → List UInt8 → UInt16 → Option α × κ
  freeaddrinfo : κ → α → κ
  socket : κ → α → Int × κ
  /-- `fcntl` twice, to set `O_NONBLOCK`. -/
  fcntl : κ → Int → κ
  connect : κ → Int → α → Except Errno Unit × κ
  /-- `poll` for `POLLOUT` with a timeout of 0. -/
  poll : κ → Int → Int × κ
  /-- `getsockopt` of `SO_ERROR`. -/
  getsockopt : κ → Int → Except Errno Int × κ
  close : κ → Int → κ
  recv : κ → Int → Nat → Except Errno (List UInt8) × κ
  send : κ → Int → List UInt8 → Except Errno Nat × κ

/-- `recv` and `send` keep to the length. -/
structure System.Within {κ α : Type} (sys : System κ α) : Prop where
  recv : ∀ k fd len data k', sys.recv k fd len = (.ok data, k') → data.length ≤ len
  send : ∀ k fd data n k', sys.send k fd data = (.ok n, k') → n ≤ data.length

inductive Use where
  | opened (fd : Int)
  | used (fd : Int)
  | closed (fd : Int)
  deriving DecidableEq, Repr

/-- `aemlib_posix_tcp_t` and the system. `uses` is a record, newest first, that the code does not
keep. -/
structure Tcp (κ : Type) where
  fd : Int
  host : List UInt8
  port : UInt16
  connecting : Bool
  system : κ
  uses : List Use

variable {κ α : Type}

/-! ## The code -/

def init (host : List UInt8) (port : UInt16) (k : κ) : Tcp κ where
  fd := -1
  host := host
  port := port
  connecting := false
  system := k
  uses := []

def close (sys : System κ α) (t : Tcp κ) (fd : Int) : Tcp κ :=
  { t with system := sys.close t.system fd, uses := .closed fd :: t.uses }

def tcpStartConnect (sys : System κ α) (t : Tcp κ) : Status × Tcp κ :=
  match sys.getaddrinfo t.system t.host t.port with
  | (none, k) => (mkStatus .io .connect, { t with system := k })
  | (some res, k) =>
    let (fd, k) := sys.socket k res
    if fd < 0 then
      (mkStatus .io .io, { t with system := sys.freeaddrinfo k res })
    else
      -- both calls of `fcntl`
      let k := sys.fcntl k fd
      let (rc, k) := sys.connect k fd res
      let t := { t with
        system := sys.freeaddrinfo k res
        uses := .used fd :: .opened fd :: t.uses }
      match rc with
      | .ok _ => (statusOk, { t with fd := fd, connecting := false })
      | .error errno =>
        if errno = .inProgress then
          (ioWouldBlock, { t with fd := fd, connecting := true })
        else
          (mkStatus .io .connect, close sys t fd)

def tcpPollConnect (sys : System κ α) (t : Tcp κ) : Status × Tcp κ :=
  let (rv, k) := sys.poll t.system t.fd
  let t := { t with system := k, uses := .used t.fd :: t.uses }
  if rv = 0 then (ioWouldBlock, t)
  -- a poll that fails reports an error but keeps the socket, and `connecting` stays
  else if rv < 0 then (mkStatus .io .connect, t)
  else
    let (err, k) := sys.getsockopt t.system t.fd
    let t := { t with system := k, uses := .used t.fd :: t.uses }
    if err = .ok 0 then (statusOk, { t with connecting := false })
    else (mkStatus .io .connect, { close sys t t.fd with fd := -1, connecting := false })

def tcpConnect (sys : System κ α) (t : Tcp κ) : Status × Tcp κ :=
  if t.connecting then tcpPollConnect sys t else tcpStartConnect sys t

def tcpDisconnect (sys : System κ α) (t : Tcp κ) : Status × Tcp κ :=
  let t := if 0 ≤ t.fd then { close sys t t.fd with fd := -1 } else t
  (statusOk, { t with connecting := false })

def tcpRead (sys : System κ α) (t : Tcp κ) (len : Nat) : ReadResult × Tcp κ :=
  let (n, k) := sys.recv t.system t.fd len
  let t := { t with system := k, uses := .used t.fd :: t.uses }
  match n with
  | .ok data =>
    -- no byte at all is the end of the stream
    if 0 < data.length then (⟨statusOk, data⟩, t) else (⟨mkStatus .io .closed, []⟩, t)
  | .error errno =>
    if errno = .again ∨ errno = .wouldBlock then (⟨ioWouldBlock, []⟩, t)
    else (⟨mkStatus .io .io, []⟩, t)

def tcpWrite (sys : System κ α) (t : Tcp κ) (data : List UInt8) : WriteResult × Tcp κ :=
  let (n, k) := sys.send t.system t.fd data
  let t := { t with system := k, uses := .used t.fd :: t.uses }
  match n with
  | .ok n => (⟨statusOk, n⟩, t)
  | .error errno =>
    if errno = .again ∨ errno = .wouldBlock then (⟨ioWouldBlock, 0⟩, t)
    else (⟨mkStatus .io .io, 0⟩, t)

def bind (sys : System κ α) : Transport (Tcp κ) where
  connect := some (tcpConnect sys)
  disconnect := some (tcpDisconnect sys)
  read := some (tcpRead sys)
  write := some (tcpWrite sys)

theorem bind_honest {sys : System κ α} (hsys : sys.Within) : (bind sys).Honest where
  read f hf t len := by
    cases hf
    unfold tcpRead
    rcases hrecv : sys.recv t.system t.fd len with ⟨n, k⟩
    cases n with
    | ok data =>
      simp only
      split
      · -- recv() == 0 is the end of the stream, with no bytes
        exact hsys.recv _ _ _ _ _ hrecv
      · exact Nat.zero_le _
    | error errno =>
      simp only
      split
      · exact Nat.zero_le _
      · exact Nat.zero_le _
  write f hf t data := by
    cases hf
    unfold tcpWrite
    rcases hsend : sys.send t.system t.fd data with ⟨n, k⟩
    cases n with
    | ok n => exact hsys.send _ _ _ _ _ hsend
    | error errno =>
      simp only
      split
      · exact Nat.zero_le _
      · exact Nat.zero_le _

/-! ## Sockets -/

/-- The socket that is open, by the record. -/
def holding : List Use → Option Int
  | [] => none
  | .opened fd :: _ => some fd
  | .used _ :: uses => holding uses
  | .closed _ :: _ => none

/-- A socket is opened when none is open, and only the open one is closed. What is used is the open
one, or -1, which is no descriptor. -/
def Use.Allowed (past : List Use) : Use → Prop
  | .opened fd => holding past = none ∧ 0 ≤ fd
  | .used fd => holding past = some fd ∨ fd = -1
  | .closed fd => holding past = some fd

abbrev Disciplined : List Use → Prop := Throughout fun u past => u.Allowed past

theorem Disciplined.nonneg {uses : List Use} (h : Disciplined uses) {fd : Int}
    (hfd : holding uses = some fd) : 0 ≤ fd := by
  induction uses with
  | nil => cases hfd
  | cons u uses ih =>
    cases u with
    | opened fd' =>
      cases hfd
      exact h.1.2
    | used fd' => exact ih h.2 hfd
    | closed fd' => cases hfd

/-- The transport knows its socket, and has one while it is connecting. -/
structure Tcp.Tidy (t : Tcp κ) : Prop where
  disciplined : Disciplined t.uses
  fd : t.fd = (holding t.uses).getD (-1)
  connecting : t.connecting = true → holding t.uses ≠ none

theorem init_tidy (host : List UInt8) (port : UInt16) (k : κ) : (init host port k).Tidy where
  disciplined := trivial
  fd := rfl
  connecting h := nomatch h

namespace Tcp.Tidy

/-- The descriptor of a transport is its socket or -1. -/
theorem allowed {t : Tcp κ} (h : t.Tidy) : (Use.used t.fd).Allowed t.uses := by
  rw [h.fd]
  cases hfd : holding t.uses with
  | none => exact Or.inr rfl
  | some fd => exact Or.inl hfd

/-- Any call on the descriptor. -/
theorem used {t : Tcp κ} (h : t.Tidy) (k : κ) :
    { t with system := k, uses := .used t.fd :: t.uses }.Tidy where
  disciplined := ⟨h.allowed, h.disciplined⟩
  fd := h.fd
  connecting := h.connecting

/-- The socket is closed and forgotten. -/
theorem closed {t : Tcp κ} (h : t.Tidy) (sys : System κ α) (hsome : holding t.uses ≠ none) :
    { close sys t t.fd with fd := -1, connecting := false }.Tidy where
  disciplined := by
    refine ⟨?_, h.disciplined⟩
    rw [h.fd]
    cases hfd : holding t.uses with
    | none => exact absurd hfd hsome
    | some fd => exact hfd
  fd := rfl
  connecting hc := nomatch hc

theorem read {t : Tcp κ} (h : t.Tidy) (sys : System κ α) (len : Nat) :
    (tcpRead sys t len).2.Tidy ∧ holding (tcpRead sys t len).2.uses = holding t.uses ∧
      (tcpRead sys t len).2.connecting = t.connecting := by
  unfold tcpRead
  rcases sys.recv t.system t.fd len with ⟨n, k⟩
  have hused := h.used k
  cases n with
  | ok data =>
    simp only
    split
    · exact ⟨hused, rfl, rfl⟩
    · exact ⟨hused, rfl, rfl⟩
  | error errno =>
    simp only
    split
    · exact ⟨hused, rfl, rfl⟩
    · exact ⟨hused, rfl, rfl⟩

theorem write {t : Tcp κ} (h : t.Tidy) (sys : System κ α) (data : List UInt8) :
    (tcpWrite sys t data).2.Tidy ∧ holding (tcpWrite sys t data).2.uses = holding t.uses ∧
      (tcpWrite sys t data).2.connecting = t.connecting := by
  unfold tcpWrite
  rcases sys.send t.system t.fd data with ⟨n, k⟩
  have hused := h.used k
  cases n with
  | ok n => exact ⟨hused, rfl, rfl⟩
  | error errno =>
    simp only
    split
    · exact ⟨hused, rfl, rfl⟩
    · exact ⟨hused, rfl, rfl⟩

/-- A disconnect closes the socket, if there is one. -/
theorem disconnect {t : Tcp κ} (h : t.Tidy) (sys : System κ α) :
    (tcpDisconnect sys t).2.Tidy ∧ holding (tcpDisconnect sys t).2.uses = none ∧
      (tcpDisconnect sys t).2.connecting = false := by
  unfold tcpDisconnect
  cases hfd : holding t.uses with
  | none =>
    have hneg : ¬ 0 ≤ t.fd := by
      rw [h.fd, hfd]
      decide
    rw [if_neg hneg]
    exact ⟨⟨h.disciplined, h.fd, fun hc => nomatch hc⟩, hfd, rfl⟩
  | some fd =>
    have hpos : 0 ≤ t.fd := by
      rw [h.fd, hfd]
      exact h.disciplined.nonneg hfd
    rw [if_pos hpos]
    exact ⟨h.closed sys (by rw [hfd]; exact Option.some_ne_none fd), rfl, rfl⟩

/-- A connect that is under way is asked about; it is over with the socket open, or goes on, or the
socket is closed. -/
theorem pollConnect {t : Tcp κ} (h : t.Tidy) (sys : System κ α) (hc : t.connecting = true) :
    (tcpPollConnect sys t).2.Tidy ∧
      if (tcpPollConnect sys t).1 = statusOk then
        holding (tcpPollConnect sys t).2.uses ≠ none ∧ (tcpPollConnect sys t).2.connecting = false
      else (tcpPollConnect sys t).2.connecting = true ∨
        holding (tcpPollConnect sys t).2.uses = none := by
  have hsome := h.connecting hc
  rcases hpoll : sys.poll t.system t.fd with ⟨rv, k⟩
  have hused := h.used k
  -- the answers of `poll` and then of `getsockopt`, as the source asks for them
  by_cases hzero : rv = 0
  · simp only [tcpPollConnect, hpoll, if_pos hzero]
    exact ⟨hused, Or.inl hc⟩
  by_cases hneg : rv < 0
  · simp only [tcpPollConnect, hpoll, if_neg hzero, if_pos hneg]
    exact ⟨hused, Or.inl hc⟩
  rcases hopt : sys.getsockopt k t.fd with ⟨err, k'⟩
  have hused' := hused.used k'
  by_cases hok : err = .ok 0
  · simp only [tcpPollConnect, hpoll, if_neg hzero, if_neg hneg, hopt, if_pos hok]
    exact ⟨⟨hused'.disciplined, hused'.fd, fun hc => nomatch hc⟩, hsome, trivial⟩
  · simp only [tcpPollConnect, hpoll, if_neg hzero, if_neg hneg, hopt, if_neg hok]
    exact ⟨hused'.closed sys hsome, Or.inr rfl⟩

/-- A connect that begins with no socket open. -/
theorem startConnect {t : Tcp κ} (h : t.Tidy) (sys : System κ α) (hc : t.connecting = false)
    (hnone : holding t.uses = none) :
    (tcpStartConnect sys t).2.Tidy ∧
      if (tcpStartConnect sys t).1 = statusOk then
        holding (tcpStartConnect sys t).2.uses ≠ none ∧
          (tcpStartConnect sys t).2.connecting = false
      else (tcpStartConnect sys t).2.connecting = true ∨
        holding (tcpStartConnect sys t).2.uses = none := by
  have hfd : t.fd = -1 := by
    rw [h.fd, hnone]
    rfl
  rcases hinfo : sys.getaddrinfo t.system t.host t.port with ⟨_ | res, k⟩
  · simp only [tcpStartConnect, hinfo]
    exact ⟨⟨h.disciplined, h.fd, h.connecting⟩, Or.inr hnone⟩
  rcases hsocket : sys.socket k res with ⟨fd, k₁⟩
  by_cases hneg : fd < 0
  · simp only [tcpStartConnect, hinfo, hsocket, if_pos hneg]
    exact ⟨⟨h.disciplined, h.fd, h.connecting⟩, Or.inr hnone⟩
  -- from here on a socket is open, and it is used by `connect`
  have hdisc : Disciplined (.used fd :: .opened fd :: t.uses) :=
    ⟨Or.inl rfl, ⟨hnone, Int.not_lt.mp hneg⟩, h.disciplined⟩
  rcases hconnect : sys.connect (sys.fcntl k₁ fd) fd res with ⟨errno | _, k₂⟩
  · by_cases hprogress : errno = .inProgress
    · simp only [tcpStartConnect, hinfo, hsocket, if_neg hneg, hconnect, if_pos hprogress]
      exact ⟨⟨hdisc, rfl, fun _ => Option.some_ne_none fd⟩, Or.inl trivial⟩
    · simp only [tcpStartConnect, hinfo, hsocket, if_neg hneg, hconnect, if_neg hprogress]
      -- `connect` has failed for good: the socket is closed, and `fd` is still -1
      refine ⟨⟨⟨rfl, hdisc⟩, hfd, fun hyes => ?_⟩, Or.inr rfl⟩
      rw [show t.connecting = true from hyes] at hc
      cases hc
  · simp only [tcpStartConnect, hinfo, hsocket, if_neg hneg, hconnect]
    exact ⟨⟨hdisc, rfl, fun hc => nomatch hc⟩, Option.some_ne_none fd, trivial⟩

end Tcp.Tidy

/-! ## When the client connects and disconnects -/

/-- The transport is connected only when it is closed, whatever comes of it, and closed only when it
is open. -/
def Dials (past : List Event) : Event → Prop
  | .connect _ => openCount past = 0
  | .disconnect _ => openCount past = 1
  | _ => True

/-- Every connect and disconnect since `aemlib_init` was in its place. -/
def Dialled (t : List Event) : Prop := Throughout (fun e past => Dials past e) (sinceInit t)

theorem dialled_step {l l' : Link} (hstep : Link.Step l l')
    (hl : l.Balanced ∧ Dialled l.trace) : l'.Balanced ∧ Dialled l'.trace := by
  refine ⟨balanced_step hstep hl.1, ?_⟩
  obtain ⟨hbal, hd⟩ := hl
  -- the count is 0 in the states that connect and 1 in those that disconnect
  cases hstep with
  | init size hello => trivial
  | opened ms hs => exact ⟨trivial, hbal.count_zero (by rw [hs]; rfl), hd⟩
  | openBlocked status hs hst => exact ⟨hbal.count_zero (by rw [hs]; rfl), hd⟩
  | openFailed status hs hst => exact ⟨hbal.count_zero (by rw [hs]; rfl), hd⟩
  | awaitFailed res status hs hres => exact ⟨hbal.count_one (by rw [hs]; rfl), trivial, hd⟩
  | rejected res why status held' hs => exact ⟨hbal.count_one (by rw [hs]; rfl), trivial, hd⟩
  | timedOut status hs => exact ⟨hbal.count_one (by rw [hs]; rfl), hd⟩
  | closed status hs => exact ⟨hbal.count_one (by rw [hs]; rfl), hd⟩
  | sendRefused | sendFailed => exact ⟨trivial, trivial, hd⟩
  | sent => exact ⟨trivial, trivial, trivial, hd⟩
  | noted | openMissing | disconnectCall | consumed => exact hd
  | clock | flushFailed | flushed | encodeFailed | connectCall | connectRefused | awaiting
  | accepted | read | message => exact ⟨trivial, hd⟩

/-- The transport has a socket exactly while it is open, or is connecting. -/
structure Sockets (t : Tcp κ) (events : List Event) : Prop where
  tidy : t.Tidy
  opened : openCount (sinceInit events) = 1 → holding t.uses ≠ none ∧ t.connecting = false
  closed : openCount (sinceInit events) = 0 → t.connecting = true ∨ holding t.uses = none

/-- A client on this transport, whose clock and callback leave it alone. -/
structure Bound (sys : System κ α) (s : Setup (Tcp κ)) : Prop where
  transport : s.transport = bind sys
  nowMs : ∀ f, s.nowMs = some f → ∀ t, ∃ k, (f t).2 = { t with system := k }
  onMessage : ∀ f, s.onMessage = some f → ∀ t topic payload,
    ∃ k, (f t topic payload).2 = { t with system := k }

/-- An event that neither opens nor closes the transport. -/
theorem sockets_cons {t t' : Tcp κ} {events : List Event} {e : Event}
    (h : Dialled events → Sockets t events) (htidy : t.Tidy → t'.Tidy)
    (huses : t.Tidy → holding t'.uses = holding t.uses ∧ t'.connecting = t.connecting)
    (hinit : sinceInit (e :: events) = e :: sinceInit events)
    (hcount : openCount (e :: sinceInit events) = openCount (sinceInit events)) :
    Dialled (e :: events) → Sockets t' (e :: events) := by
  intro hd
  rw [Dialled, hinit] at hd
  obtain ⟨ht, hopened, hclosed⟩ := h hd.2
  obtain ⟨hholding, hconnecting⟩ := huses ht
  refine ⟨htidy ht, ?_, ?_⟩
  · rw [hinit, hcount, hholding, hconnecting]
    exact hopened
  · rw [hinit, hcount, hholding, hconnecting]
    exact hclosed

theorem Bound.keeps {sys : System κ α} {s : Setup (Tcp κ)} (hs : Bound sys s) :
    s.Keeps fun t events => Dialled events → Sockets t events where
  mark e he t events h := by
    -- the other marks are not made by these steps
    cases e with
    | connectCall | encode | refused | sent =>
      exact sockets_cons h (fun ht => ht) (fun _ => ⟨rfl, rfl⟩) rfl rfl
    | _ => cases he
  disconnect f hf t events h := by
    rw [hs.transport] at hf
    cases hf
    rintro ⟨hone, hd⟩
    -- tcp_disconnect closes whatever is open and forgets it
    obtain ⟨htidy, hnone, hconnecting⟩ := (h hd).tidy.disconnect sys
    have hzero : openCount (sinceInit (.disconnect (tcpDisconnect sys t).1 :: events)) = 0 :=
      openCount_disconnect hone
    exact ⟨htidy, fun hone' => absurd (hzero.symm.trans hone') (by decide), fun _ => Or.inr hnone⟩
  read f hf t events len h := by
    rw [hs.transport] at hf
    cases hf
    exact sockets_cons h (fun ht => (ht.read sys len).1) (fun ht => (ht.read sys len).2) rfl rfl
  write f hf t events data h := by
    rw [hs.transport] at hf
    cases hf
    exact sockets_cons h (fun ht => (ht.write sys data).1) (fun ht => (ht.write sys data).2) rfl
      rfl
  now f hf t events h := by
    obtain ⟨k, hk⟩ := hs.nowMs f hf t
    rw [hk]
    exact sockets_cons h (fun ht => ⟨ht.disciplined, ht.fd, ht.connecting⟩) (fun _ => ⟨rfl, rfl⟩)
      rfl rfl
  message f hf t events topic payload h := by
    obtain ⟨k, hk⟩ := hs.onMessage f hf t topic payload
    rw [hk]
    exact sockets_cons h (fun ht => ⟨ht.disciplined, ht.fd, ht.connecting⟩) (fun _ => ⟨rfl, rfl⟩)
      rfl rfl

theorem Bound.keepsConnect {sys : System κ α} {s : Setup (Tcp κ)} (hs : Bound sys s) :
    s.KeepsConnect fun t events => Dialled events → Sockets t events := by
  intro f hf t events h
  rw [hs.transport] at hf
  cases hf
  rintro ⟨hzero, hd⟩
  obtain ⟨ht, -, hclosed⟩ := h hd
  -- closed by the trace: there is a connect under way, or no socket at all
  have hconnect : (tcpConnect sys t).2.Tidy ∧ if (tcpConnect sys t).1 = statusOk then
      holding (tcpConnect sys t).2.uses ≠ none ∧ (tcpConnect sys t).2.connecting = false
      else (tcpConnect sys t).2.connecting = true ∨ holding (tcpConnect sys t).2.uses = none := by
    unfold tcpConnect
    cases hc : t.connecting with
    | true => exact ht.pollConnect sys hc
    | false =>
      rcases hclosed hzero with hyes | hnone
      · rw [hc] at hyes
        cases hyes
      · exact ht.startConnect sys hc hnone
  obtain ⟨htidy, hcase⟩ := hconnect
  have hcount : openCount (sinceInit (.connect (tcpConnect sys t).1 :: events)) =
      if (tcpConnect sys t).1 = statusOk then 1 else 0 := by
    show (if (tcpConnect sys t).1 = statusOk then 1 else 0) + openCount (sinceInit events) = _
    rw [show openCount (sinceInit events) = 0 from hzero, Int.add_zero]
  split at hcase
  · next hok =>
    rw [if_pos hok] at hcount
    exact ⟨htidy, fun _ => hcase, fun h0 => absurd (hcount.symm.trans h0) (by decide)⟩
  · next hok =>
    rw [if_neg hok] at hcount
    exact ⟨htidy, fun h1 => absurd (hcount.symm.trans h1) (by decide), fun _ => hcase⟩

/-! ## Every run -/

inductive Turn (κ : Type) where
  | client (c : Call (Tcp κ))
  | system (g : κ → κ)

def Turn.move : Turn κ → Move (Tcp κ)
  | .client c => .call c
  | .system g => .env (modify fun t => { t with system := g t.system })

/-- **One socket at a time, and none is closed twice.** A client on a fresh TCP transport, whose
callback does not call `aemlib_connect`, makes any calls but `aemlib_init`, and anything may happen
in the system in between. No turn faults. A socket is opened only when there is none, only the open
one is closed, and no call is made on a descriptor that was closed before; the transport knows the
socket that is open. There is one in the three states behind a successful connect. In the other two
there is one only while `connecting` says that a connect is under way: also in a client that a
failed `poll` has made `DISCONNECTED`, whose next connect goes on with that socket. -/
theorem sockets_disciplined {sys : System κ α} (hsys : sys.Within) {cfg : Config (Tcp κ)}
    {w₀ w₁ : World (Tcp κ)} {host : List UInt8} {port : UInt16} {k : κ} {turns : List (Turn κ)}
    (hbound : Bound sys cfg.client.setup) (htame : ∀ f, cfg.onMessage = some f → f.Tame)
    (hfresh : w₀.env = init host port k) (hinit : Aemlib.init (some cfg) w₀ = .ok (.ok (), w₁))
    (hturns : ∀ c, .client c ∈ turns → c.Contract ∧ c.isInit = false) :
    (play (turns.map Turn.move)).Returns w₁ fun _ w =>
      Disciplined w.env.uses ∧ w.env.fd = (holding w.env.uses).getD (-1) ∧
      (w.client.state.isOpen = true → holding w.env.uses ≠ none ∧ w.env.connecting = false) ∧
      (w.client.state.isOpen = false → w.env.connecting = true ∨ holding w.env.uses = none) := by
  have hcontract : cfg.client.setup.Contract :=
    ⟨by rw [hbound.transport]; exact bind_honest hsys, htame⟩
  have hsetup : w₁.client.setup = cfg.client.setup := init_setup hinit
  obtain ⟨hs, ha⟩ := init_attached hbound.keeps hinit hsetup
    (show Dialled (.init :: w₀.trace) → Sockets w₀.env (.init :: w₀.trace) from fun _ => by
      rw [hfresh]
      exact ⟨init_tidy host port k, (fun h => absurd (show (0 : Int) = 1 from h) (by decide)),
        fun _ => Or.inr rfl⟩)
  have hsafe : w₁.Safe := ⟨hs, hsetup ▸ hcontract⟩
  refine (play_returns hbound.keeps hbound.keepsConnect hsafe (fun m hm => ?_) (fun c hc => ?_)
    (fun p hp t events hsockets => ?_) ha).mono fun r w ⟨href, hattached⟩ => ?_
  · obtain ⟨turn, hturn, rfl⟩ := List.mem_map.mp hm
    cases turn with
    | client c => exact (hturns c hturn).2
    | system g => rfl
  · obtain ⟨turn, hturn, heq⟩ := List.mem_map.mp hc
    cases turn with
    | client c' =>
      cases heq
      exact (hturns c hturn).1
    | system g => cases heq
  · obtain ⟨turn, hturn, heq⟩ := List.mem_map.mp hp
    cases turn with
    | client c => cases heq
    | system g =>
      cases heq
      refine ⟨_, _, rfl, fun hd => ?_⟩
      obtain ⟨ht, hopened, hclosed⟩ := hsockets hd
      exact ⟨⟨ht.disciplined, ht.fd, ht.connecting⟩, hopened, hclosed⟩
  · -- the client connects and disconnects in turns, which is what the sockets are ruled by
    obtain ⟨hbal, hdialled⟩ := href.invariant hinit
      (P := fun l => l.Balanced ∧ Dialled l.trace) (fun _ _ _ => ⟨⟨rfl, trivial⟩, trivial⟩)
      dialled_step
    obtain ⟨ht, hopened, hclosed⟩ := hattached.2 hdialled
    exact ⟨ht.disciplined, ht.fd, fun hopen => hopened (hbal.count_one hopen),
      fun hnot => hclosed (hbal.count_zero hnot)⟩

structure Small where
  nextFd : Int
  polls : List Int
  inbox : List (List UInt8)
  deriving DecidableEq, Repr

/-- Every connect has to be waited for, and everything sent is taken. -/
def Small.system : System Small Unit where
  getaddrinfo k _ _ := (some (), k)
  freeaddrinfo k _ := k
  socket k _ := (k.nextFd, { k with nextFd := k.nextFd + 1 })
  fcntl k _ := k
  connect k _ _ := (.error .inProgress, k)
  poll k _ := (k.polls.headD 1, { k with polls := k.polls.tail })
  getsockopt k _ := (.ok 0, k)
  close k _ := k
  recv k _ len := match k.inbox with
    | [] => (.error .again, k)
    | data :: rest => (.ok (data.take len), { k with inbox := rest })
  send k _ data := (.ok data.length, k)

theorem Small.within : Small.system.Within where
  recv k fd len data k' h := by
    unfold system at h
    simp only at h
    split at h
    · cases h
    · cases h
      exact List.length_take_le _ _
  send k fd data n k' h := by
    cases h
    exact Nat.le_refl _

def config (sys : System κ α) (txSize rxSize : Fin (2 ^ 64)) : Config (Tcp κ) :=
  .zeroed (bind sys) (fun t => (0, t)) 60000 none txSize rxSize

theorem config_bound (sys : System κ α) (txSize rxSize : Fin (2 ^ 64)) :
    Bound sys (config sys txSize rxSize).client.setup where
  transport := rfl
  nowMs f hf t := by
    cases hf
    exact ⟨t.system, rfl⟩
  onMessage f hf := nomatch hf

/-- Two connections, each with a connect that takes three polls or two. -/
def reconnects : List (Turn Small) :=
  [.client (.request .connect), .client .poll, .client .poll, .client .poll, .client .poll,
    .client (.request .disconnect), .client .poll, .client (.request .connect), .client .poll,
    .client .poll]

/-- The first socket is closed when the second one is opened. -/
theorem sockets_disciplined_twice :
    ∃ w : World (Tcp Small), w.client.state = .mqttConnectSent ∧ holding w.env.uses = some 4 ∧
      Use.closed 3 ∈ w.env.uses ∧ Disciplined w.env.uses := by
  obtain ⟨w₁, w, hinit, -, hplay, hstate, hholding, hclosed⟩ := exists_played
    (P := fun w : World (Tcp Small) => w.client.state = .mqttConnectSent ∧
      holding w.env.uses = some 4 ∧ Use.closed 3 ∈ w.env.uses)
    (config Small.system 32 16) (init [] 1883 ⟨3, [0], [[0x20, 2, 0, 0]]⟩)
    (reconnects.map Turn.move) (by decide +kernel)
  obtain ⟨r, w', hplay', hdisc, -⟩ := sockets_disciplined Small.within
    (config_bound Small.system 32 16) (fun f hf => nomatch hf) rfl hinit
    (show ∀ c, .client c ∈ reconnects → c.Contract ∧ c.isInit = false by
      simp [reconnects, Call.Contract, Call.isInit, Request.Fits])
  rw [hplay] at hplay'
  cases hplay'
  exact ⟨w, hstate, hholding, hclosed, hdisc⟩

end PosixTcp

end Aemlib
