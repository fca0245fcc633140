import Mathlib.Data.List.GetD
import Aemlib.Behaviour.Bounds
import Aemlib.Trace

/-!
# Opening, greeting and closing

The transport is open exactly in the three states behind a successful connect. That a client which
treats a CONNACK as its answer has also sent its CONNECT is not guaranteed by the code: the state
that waits for CONNACK is entered before CONNECT is sent, and the sending can fail.
-/

namespace Aemlib

open Machine Proto

variable {σ : Type}

/-! ## Opens and closes -/

def openCount : List Event → Int
  | [] => 0
  | .connect status :: t => (if status = statusOk then 1 else 0) + openCount t
  | .disconnect _ :: t => openCount t - 1
  | _ :: t => openCount t

def State.isOpen : State → Bool
  | .disconnected | .connecting => false
  | .mqttConnectSent | .mqttConnected | .mqttDisconnecting => true

/-- The transport is opened only when it is closed, and closed only when it is open. -/
def Event.Paired (past : List Event) : Event → Prop
  | .connect status => status = statusOk → openCount past = 0
  | .disconnect _ => openCount past = 1
  | _ => True

structure Link.Balanced (l : Link) : Prop where
  count : openCount (sinceInit l.trace) = if l.state.isOpen then 1 else 0
  paired : Throughout (fun e past => e.Paired past) (sinceInit l.trace)

theorem Link.Balanced.count_zero {l : Link} (h : l.Balanced) (hs : l.state.isOpen = false) :
    openCount (sinceInit l.trace) = 0 := by
  rw [h.count, hs]
  rfl

theorem Link.Balanced.count_one {l : Link} (h : l.Balanced) (hs : l.state.isOpen = true) :
    openCount (sinceInit l.trace) = 1 := by
  rw [h.count, hs]
  rfl

/-- Closing what is open brings the count back to 0. -/
theorem openCount_disconnect {t : List Event} {status : Status} (h : openCount t = 1) :
    openCount (.disconnect status :: t) = 0 := by
  rw [openCount, h]
  rfl

theorem balanced_step {l l' : Link} (hstep : Link.Step l l') (hl : l.Balanced) : l'.Balanced := by
  cases hstep with
  | init size hello => exact ⟨rfl, trivial⟩
  | opened ms hs =>
    -- the only step that raises the count starts where it is 0
    have hzero := hl.count_zero (by rw [hs]; rfl)
    refine ⟨?_, trivial, fun _ => hzero, hl.paired⟩
    simp only [sinceInit, openCount, hzero]
    rfl
  | openBlocked status hs hst =>
    refine ⟨?_, fun h => absurd h hst.ne_ok, hl.paired⟩
    simpa only [sinceInit, openCount, if_neg hst.ne_ok, Int.zero_add] using hl.count
  | openFailed status hs hst =>
    have hzero := hl.count_zero (by rw [hs]; rfl)
    refine ⟨?_, fun h => absurd h hst.1, hl.paired⟩
    simp only [sinceInit, openCount, if_neg hst.1, hzero]
    rfl
  | openMissing hs => exact ⟨hl.count_zero (by rw [hs]; rfl), hl.paired⟩
  | awaitFailed res status hs hres =>
    -- the steps that lower it start where it is 1
    have hone := hl.count_one (by rw [hs]; rfl)
    exact ⟨openCount_disconnect hone, hone, trivial, hl.paired⟩
  | rejected res why status held' hs =>
    have hone := hl.count_one (by rw [hs]; rfl)
    exact ⟨openCount_disconnect hone, hone, trivial, hl.paired⟩
  | timedOut status hs =>
    have hone := hl.count_one (by rw [hs]; rfl)
    exact ⟨openCount_disconnect hone, hone, hl.paired⟩
  | closed status hs =>
    have hone := hl.count_one (by rw [hs]; rfl)
    exact ⟨openCount_disconnect hone, hone, hl.paired⟩
  | connectCall hs => exact ⟨hl.count_zero (by rw [hs]; rfl), trivial, hl.paired⟩
  | disconnectCall hs => exact ⟨hl.count_one (by rw [hs]; rfl), hl.paired⟩
  | accepted res n hs => exact ⟨hl.count_one (by rw [hs]; rfl), trivial, hl.paired⟩
  | clock ms => exact ⟨hl.count, trivial, hl.paired⟩
  | noted ms hs => exact ⟨hl.count, hl.paired⟩
  | flushFailed res hne hres => exact ⟨hl.count, trivial, hl.paired⟩
  | flushed res hne hres hle => exact ⟨hl.count, trivial, hl.paired⟩
  | encodeFailed p staged' hp hlen => exact ⟨hl.count, trivial, hl.paired⟩
  | sendRefused p staged' hp hne hlen => exact ⟨hl.count, trivial, trivial, hl.paired⟩
  | sendFailed p res hp hnil hres => exact ⟨hl.count, trivial, trivial, hl.paired⟩
  | sent p res hp hnil hres => exact ⟨hl.count, trivial, trivial, trivial, hl.paired⟩
  | connectRefused hs => exact ⟨hl.count, trivial, hl.paired⟩
  | awaiting res hs => exact ⟨hl.count, trivial, hl.paired⟩
  | read len res held' hs => exact ⟨hl.count, trivial, hl.paired⟩
  | message topic payload hs => exact ⟨hl.count, trivial, hl.paired⟩
  | consumed held' hs => exact ⟨hl.count, hl.paired⟩

/-- **Opens and closes balance.** In every run, since the last `aemlib_init` the transport has been
opened once more than closed in the states behind a connect, and as often in the other two; it was
never opened while open nor closed while closed. -/
theorem open_balanced {w : World σ} (h : Reachable w) :
    openCount (sinceInit w.trace) = (if w.client.state.isOpen then 1 else 0) ∧
      Throughout (fun e past => e.Paired past) (sinceInit w.trace) := by
  obtain ⟨hcount, hpaired⟩ := h.invariant (P := Link.Balanced)
    (fun _ _ _ => ⟨rfl, trivial⟩) balanced_step
  exact ⟨hcount, hpaired⟩

/-- After a connection that was opened, timed out and was closed. -/
theorem open_balanced_timeout :
    ∃ w : World Script, Event.connect statusOk ∈ w.trace ∧ w.client.state = .disconnected ∧
      openCount (sinceInit w.trace) = (if w.client.state.isOpen then 1 else 0) ∧
      Throughout (fun e past => e.Paired past) (sinceInit w.trace) := by
  obtain ⟨w, hr, -, hopen, hstate⟩ := exists_reachable
    (P := fun w => Event.connect statusOk ∈ w.trace ∧ w.client.state = .disconnected)
    (Script.config 64 64 60000 none) ⟨[], [], [], [0, 0, 5000]⟩
    [.request .connect, .poll, .poll] (by decide) (by decide +kernel)
  exact ⟨w, hopen, hstate, open_balanced hr⟩

/-! ## CONNECT before CONNACK -/

/-- The bytes read since the buffers were last emptied. -/
def received : List Event → List UInt8
  | [] => []
  | .connectCall _ _ :: _ => []
  | .read _ res :: t => received t ++ res.taken
  | _ :: t => received t

def connectOut : List Event → Bool
  | [] => false
  | .sent p :: t => p.isConnect || connectOut t
  | _ :: t => connectOut t

/-- Before CONNECT is out, the bytes read do not make up a CONNACK that would be accepted. The size
of `rx_buffer` is the room the read was given and the bytes already there. -/
def Event.Awaited (past : List Event) : Event → Prop
  | .read len res => connectOut past = false →
      (connackVerdict (len + (received past).length) (received past ++ res.taken)).accepts = false
  | _ => True

instance (past : List Event) : DecidablePred (Event.Awaited past)
  | .read _ _ => inferInstanceAs (Decidable (_ → _))
  | .encode _ _ _ | .connectCall _ _ | .init | .connect _ | .disconnect _ | .write _ _ | .now _
  | .message _ _ | .refused _ _ | .sent _ => inferInstanceAs (Decidable True)

abbrev AnswerAwaited : List Event → Prop := Throughout fun e past => e.Awaited past

/-- What the flag and the held bytes of a connection stand for. -/
structure Link.Greeter (l : Link) : Prop where
  sent : l.connectSent = connectOut (sinceConnect l.trace)
  held : l.state = .connecting ∨ l.state = .mqttConnectSent →
    l.held = received (sinceConnect l.trace) ∧ l.held.length ≤ l.size
  answered : l.Established → l.connectSent = true

theorem greeter_step {l l' : Link} (hstep : Link.Step l l')
    (hl : AnswerAwaited (sinceConnect l.trace) → l.Greeter) :
    AnswerAwaited (sinceConnect l'.trace) → l'.Greeter := by
  intro hawait
  -- a state the fields say nothing about
  have hdown : ∀ {m : Link}, m.state = .disconnected →
      m.connectSent = connectOut (sinceConnect m.trace) → m.Greeter := by
    intro m hm hsent
    refine ⟨hsent, fun h => ?_, fun h => ?_⟩
    · simp [hm] at h
    · simp [Link.Established, hm] at h
  cases hstep with
  | init size hello => exact hdown rfl rfl
  | sent p res hp hnil hres =>
    have hgreet := hl hawait.2.2.2
    refine { hgreet with sent := ?_, answered := fun hest => ?_ }
    · simp only [sinceConnect, connectOut, hgreet.sent, Bool.or_comm]
    · simp only [hgreet.answered hest, Bool.true_or]
  | connectCall hs =>
    refine ⟨rfl, fun _ => ⟨rfl, Nat.zero_le _⟩, fun h => ?_⟩
    simp [Link.Established] at h
  | connectRefused hs =>
    rw [sinceConnect_connectRefused hs] at hawait
    refine { hl hawait.2 with sent := ?_, held := fun _ => ⟨?_, Nat.zero_le _⟩ }
    · rw [sinceConnect_connectRefused hs]
      exact (hl hawait.2).sent
    · rw [sinceConnect_connectRefused hs]
      rfl
  | disconnectCall hs =>
    refine ⟨(hl hawait).sent, fun h => ?_, fun _ => (hl hawait).answered (Or.inl hs)⟩
    simp at h
  | opened ms hs =>
    refine ⟨(hl hawait.2.2).sent, fun _ => (hl hawait.2.2).held (Or.inl hs), fun h => ?_⟩
    simp [Link.Established] at h
  | awaiting res hs hres hfits hv =>
    have hgreet := hl hawait.2
    have htaken := res.length_taken_le
    refine { hgreet with held := fun _ => ⟨?_, ?_⟩ }
    · simp only [sinceConnect, received, (hgreet.held (Or.inr hs)).1]
    · show (l.held ++ res.taken).length ≤ l.size
      rw [List.length_append]
      omega
  | accepted res n hs hres hfits hv =>
    obtain ⟨hnow, hbefore⟩ := hawait
    have hgreet := hl hbefore
    obtain ⟨hheld, hlen⟩ := hgreet.held (Or.inr hs)
    refine ⟨hgreet.sent, fun h => ?_, fun _ => ?_⟩
    · simp at h
    · -- were CONNECT not out, the bytes held would not have been acceptable
      cases hsent : l.connectSent with
      | true => rfl
      | false =>
        have hno := hnow (hgreet.sent.symm.trans hsent)
        rw [← hheld, Nat.sub_add_cancel hlen, hv] at hno
        cases hno
  | openFailed status hs hst => exact hdown rfl (hl hawait.2).sent
  | openMissing hs => exact hdown rfl (hl hawait).sent
  | awaitFailed res status hs hres => exact hdown rfl (hl hawait.2.2).sent
  | rejected res why status held' hs => exact hdown rfl (hl hawait.2.2).sent
  | timedOut status hs => exact hdown rfl (hl hawait.2).sent
  | closed status hs => exact hdown rfl (hl hawait.2).sent
  | read len res held' hs =>
    refine { hl hawait.2 with held := fun h => ?_ }
    rcases hs with hs | hs <;> simp [hs] at h
  | consumed held' hs =>
    refine { hl hawait with held := fun h => ?_ }
    rcases hs with hs | hs <;> simp [hs] at h
  | clock ms => exact { hl hawait.2 with }
  | noted ms hs => exact { hl hawait with }
  | flushFailed res hne hres => exact { hl hawait.2 with }
  | flushed res hne hres hle => exact { hl hawait.2 with }
  | encodeFailed p staged' hp hlen => exact { hl hawait.2 with }
  | sendRefused p staged' hp hne hlen => exact { hl hawait.2.2 with }
  | sendFailed p res hp hnil hres => exact { hl hawait.2.2 with }
  | openBlocked status hs hst => exact { hl hawait.2 with }
  | message topic payload hs => exact { hl hawait.2 with }

/-- **Connected implies CONNECT sent.** In every run, as long as the bytes read on the current
connection before CONNECT was out did not make up a CONNACK that would be accepted: behind the
CONNACK wait, CONNECT has been sent. -/
theorem connected_connectSent {w : World σ} (h : Reachable w)
    (hawait : AnswerAwaited w.connection)
    (hstate : w.client.state = .mqttConnected ∨ w.client.state = .mqttDisconnecting) :
    w.client.connectSent = true ∧ connectOut w.connection = true := by
  have := h.invariant (P := fun l => AnswerAwaited (sinceConnect l.trace) → l.Greeter)
    (fun _ _ _ _ => ⟨rfl, fun h => by simp [Link.fresh] at h,
      fun h => by simp [Link.Established, Link.fresh] at h⟩) greeter_step
  have hsent := (this hawait).answered hstate
  exact ⟨hsent, (this hawait).sent.symm.trans hsent⟩

/-- With a CONNACK that came in two pieces behind the CONNECT. -/
theorem connected_connectSent_split_connack :
    ∃ w : World Script, w.client.state = .mqttConnected ∧ w.client.connectSent = true ∧
      connectOut w.connection = true := by
  obtain ⟨w, hr, -, hstate, hawait⟩ := exists_reachable
    (P := fun w => w.client.state = .mqttConnected ∧ AnswerAwaited w.connection)
    (Script.config 64 64 60000 none)
    ⟨[], [⟨statusOk, [0x20]⟩, ⟨statusOk, [2, 0, 0]⟩], [], []⟩
    [.request .connect, .poll, .poll, .poll] (by decide) (by decide +kernel)
  exact ⟨w, hstate, connected_connectSent hr hawait (Or.inl hstate)⟩

/-- The CONNECT fails, a CONNACK arrives all the same, and the client is connected. -/
theorem connected_without_connect :
    ∃ w : World Script, Reachable w ∧ w.client.state = .mqttConnected ∧
      w.client.connectSent = false ∧ accepted w.connection = [] := by
  obtain ⟨w, hr, -, hstate, hsent, haccepted⟩ := exists_reachable
    (P := fun w => w.client.state = .mqttConnected ∧ w.client.connectSent = false ∧
      accepted w.connection = [])
    (Script.config 64 64 60000 none)
    ⟨[], [⟨statusOk, [0x20, 2, 0, 0]⟩], [⟨Script.ioError, 0⟩], []⟩
    [.request .connect, .poll, .poll] (by decide) (by decide +kernel)
  exact ⟨w, hr, hstate, hsent, haccepted⟩

/-! ## The answer to CONNECT -/

/-- The header of the first packet of a stream, once all of that packet is there. -/
def firstPacket (stream : List UInt8) : Option FixedHeader :=
  match decodeFixedHeader stream stream.length with
  | .ok (.ok header) => if header.packetLen ≤ stream.length then some header else none
  | _ => none

/-- The first packet is a CONNACK of remaining length 2 whose return code, the second byte behind
the fixed header, is 0. -/
def Acceptance (stream : List UInt8) : Prop :=
  ∃ header, firstPacket stream = some header ∧ header.type = .connack ∧
    header.remainingLength = 2 ∧ stream.getD (header.headerSize + 1) 0 = 0

def Refusal (stream : List UInt8) : Prop :=
  ∃ header, firstPacket stream = some header ∧ header.type = .connack ∧
    2 ≤ header.remainingLength ∧ stream.getD (header.headerSize + 1) 0 ≠ 0

/-- The first packet is a CONNACK whose fourth byte is 0 without being its return code, or without
being all there is: its remaining length is not 2, or it is spelled with more than one byte and the
return code behind it is not 0. The packet fits into `rx_buffer`. -/
def Misread (size : Nat) (stream : List UInt8) : Prop :=
  ∃ header, firstPacket stream = some header ∧ header.type = .connack ∧
    header.packetLen ≤ size ∧ 4 ≤ header.packetLen ∧ stream.getD 3 0 = 0 ∧
    (header.remainingLength ≠ 2 ∨
      2 < header.headerSize ∧ stream.getD (header.headerSize + 1) 0 ≠ 0)

/-- Only a real acceptance connects the client, and a refusal disconnects it. -/
def AnswerReal (w : World σ) : Prop :=
  (w.client.state = .mqttConnected ∨ w.client.state = .mqttDisconnecting →
    Acceptance (inbound w.connection)) ∧
  (Refusal (inbound w.connection) → w.client.state = .disconnected)

theorem firstPacket_eq_some {stream : List UInt8} {header : FixedHeader} :
    firstPacket stream = some header ↔
      parseHeader stream = .ok header ∧ header.packetLen ≤ stream.length := by
  have hdecode : decodeFixedHeader stream stream.length = .ok (parseHeader stream) := by
    rw [decodeFixedHeader_eq (Nat.le_refl _), List.take_length]
  unfold firstPacket
  rw [hdecode]
  cases parseHeader stream with
  | error status => simp
  | ok header' =>
    simp only [Option.ite_none_right_eq_some, Option.some.injEq, Except.ok.injEq]
    constructor
    · rintro ⟨hle, rfl⟩
      exact ⟨rfl, hle⟩
    · rintro ⟨rfl, hle⟩
      exact ⟨hle, rfl⟩

/-- The first packet does not change when more bytes come. -/
theorem firstPacket_of_prefix {bytes stream : List UInt8} {header : FixedHeader}
    (hpre : bytes <+: stream) (h : firstPacket bytes = some header) :
    firstPacket stream = some header := by
  obtain ⟨more, rfl⟩ := hpre
  obtain ⟨hparse, hlen⟩ := firstPacket_eq_some.mp h
  refine firstPacket_eq_some.mpr ⟨parseHeader_append_ok more hparse, ?_⟩
  rw [List.length_append]
  omega

theorem firstPacket_of_wait {size : Nat} {held : List UInt8}
    (h : connackVerdict size held = .wait) : firstPacket held = none := by
  rw [Option.eq_none_iff_forall_ne_some]
  intro header hfirst
  obtain ⟨hparse, hlen⟩ := firstPacket_eq_some.mp hfirst
  unfold connackVerdict at h
  simp only [hparse, if_neg (Nat.not_lt.mpr hlen)] at h
  split at h
  · cases h
  · split at h
    · cases h
    · split at h <;> cases h

/-- What the bytes of a connection are to the client, as long as none were thrown away. -/
structure Link.Answered (l : Link) : Prop where
  connecting : l.state = .connecting → l.held = [] ∧ inbound (sinceConnect l.trace) = []
  waiting : l.state = .mqttConnectSent →
    l.held = inbound (sinceConnect l.trace) ∧ connackVerdict l.size l.held = .wait
  established : l.Established →
    ∃ bytes n, bytes <+: inbound (sinceConnect l.trace) ∧ connackVerdict l.size bytes = .accept n

/-- No `aemlib_connect` was refused in this part of a trace. -/
abbrev Kept (t : List Event) : Prop := ∀ e ∈ t, e.isConnectCall = false

theorem answered_step {l l' : Link} (hstep : Link.Step l l')
    (hl : Kept (sinceConnect l.trace) → l.Answered) :
    Kept (sinceConnect l'.trace) → l'.Answered := by
  intro hkept
  -- nothing is said about a client that has given up
  have hdown : ∀ {m : Link}, m.state = .disconnected → m.Answered := by
    intro m hm
    exact ⟨fun h => by simp [hm] at h, fun h => by simp [hm] at h,
      fun h => by simp [Link.Established, hm] at h⟩
  cases hstep with
  | init | openFailed | openMissing | awaitFailed | rejected | timedOut | closed => exact hdown rfl
  | connectCall hs =>
    exact ⟨fun _ => ⟨rfl, rfl⟩, fun h => by simp at h, fun h => by simp [Link.Established] at h⟩
  | connectRefused hs =>
    -- the one step that takes bytes out of `rx_buffer` unseen; `hkept` excludes it
    rw [sinceConnect_connectRefused hs] at hkept
    exact absurd (hkept _ List.mem_cons_self) (by simp [Event.isConnectCall])
  | opened ms hs =>
    obtain ⟨hheld, hin⟩ := (hl (List.forall_mem_of_forall_mem_cons
      (List.forall_mem_of_forall_mem_cons hkept))).connecting hs
    refine ⟨fun h => by simp at h, fun _ => ⟨hheld.trans hin.symm, ?_⟩,
      fun h => by simp [Link.Established] at h⟩
    show connackVerdict l.size l.held = .wait
    rw [hheld]
    rfl
  | awaiting res hs hres hfits hv =>
    have hans := hl (List.forall_mem_of_forall_mem_cons hkept)
    refine ⟨fun h => by simp [hs] at h, fun _ => ⟨?_, hv⟩, fun h => ?_⟩
    · simp only [sinceConnect, inbound, (hans.waiting hs).1]
    · simp [Link.Established, hs] at h
  | accepted res n hs hres hfits hv =>
    have hans := hl (List.forall_mem_of_forall_mem_cons hkept)
    refine ⟨fun h => by simp at h, fun h => by simp at h, fun _ => ⟨l.held ++ res.taken, n, ?_, hv⟩⟩
    simp only [sinceConnect, inbound, (hans.waiting hs).1]
    exact List.prefix_refl _
  | disconnectCall hs =>
    exact ⟨fun h => by simp at h, fun h => by simp at h,
      fun _ => (hl hkept).established (Or.inl hs)⟩
  | read len res held' hs =>
    have hans := hl (List.forall_mem_of_forall_mem_cons hkept)
    refine ⟨fun h => ?_, fun h => ?_, fun _ => ?_⟩
    · rcases hs with hs | hs <;> simp [hs] at h
    · rcases hs with hs | hs <;> simp [hs] at h
    · obtain ⟨bytes, n, hpre, hv⟩ := hans.established hs
      exact ⟨bytes, n, hpre.trans (List.prefix_append _ _), hv⟩
  | consumed held' hs =>
    refine ⟨fun h => ?_, fun h => ?_, (hl hkept).established⟩
    · rcases hs with hs | hs <;> simp [hs] at h
    · rcases hs with hs | hs <;> simp [hs] at h
  | noted ms hs => exact { hl hkept with }
  | clock | flushFailed | flushed | encodeFailed | openBlocked | message =>
    exact { hl (List.forall_mem_of_forall_mem_cons hkept) with }
  | sendRefused | sendFailed =>
    have hbefore := List.forall_mem_of_forall_mem_cons (List.forall_mem_of_forall_mem_cons hkept)
    exact { hl hbefore with }
  | sent =>
    exact { hl (List.forall_mem_of_forall_mem_cons (List.forall_mem_of_forall_mem_cons
      (List.forall_mem_of_forall_mem_cons hkept))) with }

/-- A first packet the client has taken for an acceptance: what it looked at. -/
theorem firstPacket_of_accept {size n : Nat} {bytes stream : List UInt8}
    (hpre : bytes <+: stream) (hv : connackVerdict size bytes = .accept n) :
    ∃ header, firstPacket stream = some header ∧ header.type = .connack ∧
      header.packetLen ≤ size ∧ 4 ≤ header.packetLen ∧ stream.getD 3 0 = 0 := by
  obtain ⟨header, hparse, htype, rfl, hsize, hlen, hfour, hzero⟩ := connackVerdict_eq_accept.mp hv
  have hfirst := firstPacket_of_prefix hpre (firstPacket_eq_some.mpr ⟨hparse, hlen⟩)
  refine ⟨header, hfirst, htype, hsize, hfour, ?_⟩
  obtain ⟨more, rfl⟩ := hpre
  rw [List.getD_append _ _ _ _ (by omega)]
  exact hzero

/-- For a packet the client has taken for an acceptance, to be one is not to be misread. -/
theorem acceptance_iff {size n : Nat} {bytes stream : List UInt8} (hpre : bytes <+: stream)
    (hv : connackVerdict size bytes = .accept n) : Acceptance stream ↔ ¬ Misread size stream := by
  obtain ⟨header, hfirst, htype, hsize, hfour, hzero⟩ := firstPacket_of_accept hpre hv
  have hbounds := parseHeader_bounds (firstPacket_eq_some.mp hfirst).1
  constructor
  · rintro ⟨header₁, hfirst₁, -, hrem, hcode⟩ ⟨header₂, hfirst₂, -, -, -, -, hbad⟩
    rw [hfirst] at hfirst₁ hfirst₂
    cases hfirst₁
    cases hfirst₂
    exact hbad.elim (fun h => h hrem) fun h => h.2 hcode
  · intro hgood
    have hrem : header.remainingLength = 2 := by
      by_contra hne
      exact hgood ⟨header, hfirst, htype, hsize, hfour, hzero, Or.inl hne⟩
    refine ⟨header, hfirst, htype, hrem, ?_⟩
    by_contra hcode
    -- the return code is the fourth byte when the length takes one
    have hlong : 2 < header.headerSize := by
      by_contra hshort
      have hsz : header.headerSize = 2 := by omega
      rw [hsz] at hcode
      exact hcode hzero
    exact hgood ⟨header, hfirst, htype, hsize, hfour, hzero, Or.inr ⟨hlong, hcode⟩⟩

theorem Acceptance.not_refusal {stream : List UInt8} (h : Acceptance stream) :
    ¬ Refusal stream := by
  rintro ⟨header, hfirst, -, -, hcode⟩
  obtain ⟨header', hfirst', -, -, hzero⟩ := h
  rw [hfirst] at hfirst'
  cases hfirst'
  exact hcode hzero

theorem not_refusal_of_none {stream : List UInt8} (h : firstPacket stream = none) :
    ¬ Refusal stream := by
  rintro ⟨header, hfirst, -⟩
  rw [h] at hfirst
  cases hfirst

theorem not_misread_of_none {size : Nat} {stream : List UInt8} (h : firstPacket stream = none) :
    ¬ Misread size stream := by
  rintro ⟨header, hfirst, -⟩
  rw [h] at hfirst
  cases hfirst

/-- **Only a real acceptance connects the client**, and a refusal disconnects it, unless the first
packet is one that the CONNACK decoder misreads; and as long as the client has not been disconnected
since, it then goes wrong. No packet keeps a poll from ending. -/
theorem answerReal_iff {w : World σ} (h : Reachable w) (hkept : Kept w.connection) :
    (¬ Misread w.client.rxBufferSize (inbound w.connection) → AnswerReal w) ∧
    (w.client.state ≠ .disconnected →
      (AnswerReal w ↔ ¬ Misread w.client.rxBufferSize (inbound w.connection))) ∧
    (w.client.setup.Contract → ∃ r w', poll w = .ok (r, w') ∧ Reachable w') := by
  have hans : w.link.Answered := h.invariant
    (P := fun l => Kept (sinceConnect l.trace) → l.Answered)
    (fun _ _ _ _ => ⟨fun h => by simp [Link.fresh] at h, fun h => by simp [Link.fresh] at h,
      fun h => by simp [Link.Established, Link.fresh] at h⟩) answered_step hkept
  have hlive : w.client.state ≠ .disconnected →
      (AnswerReal w ↔ ¬ Misread w.client.rxBufferSize (inbound w.connection)) := by
    intro hne
    -- before the first packet is complete there is nothing to get wrong
    have hearly : firstPacket (inbound w.connection) = none →
        ¬ (w.client.state = .mqttConnected ∨ w.client.state = .mqttDisconnecting) →
        (AnswerReal w ↔ ¬ Misread w.client.rxBufferSize (inbound w.connection)) := by
      intro hnone hnot
      have hreal : AnswerReal w :=
        ⟨fun hest => absurd hest hnot, fun href => absurd href (not_refusal_of_none hnone)⟩
      exact iff_of_true hreal (not_misread_of_none hnone)
    have hest : w.link.Established →
        (AnswerReal w ↔ ¬ Misread w.client.rxBufferSize (inbound w.connection)) := by
      intro hest
      obtain ⟨bytes, n, hpre, hv⟩ := hans.established hest
      have hiff : Acceptance (inbound w.connection) ↔
          ¬ Misread w.client.rxBufferSize (inbound w.connection) := acceptance_iff hpre hv
      rw [← hiff]
      exact ⟨fun hreal => hreal.1 hest,
        fun hacc => ⟨fun _ => hacc, fun href => absurd href hacc.not_refusal⟩⟩
    cases hstate : w.client.state with
    | disconnected => exact absurd hstate hne
    | connecting =>
      have hnil : inbound w.connection = [] := (hans.connecting hstate).2
      exact hearly (by rw [hnil]; rfl) (by simp [hstate])
    | mqttConnectSent =>
      obtain ⟨hheld, hv⟩ := hans.waiting hstate
      rw [hheld] at hv
      exact hearly (firstPacket_of_wait hv) (by simp [hstate])
    | mqttConnected => exact hest (Or.inl hstate)
    | mqttDisconnecting => exact hest (Or.inr hstate)
  refine ⟨fun hgood => ?_, hlive, fun hc => ?_⟩
  · by_cases hstate : w.client.state = .disconnected
    · exact ⟨fun hest => by simp [hstate] at hest, fun _ => hstate⟩
    · exact (hlive hstate).mpr hgood
  · obtain ⟨r, w', hpoll⟩ := poll_returns ⟨h.sound, hc⟩
    exact ⟨r, w', hpoll, h.call (c := .poll) hpoll⟩

/-- A CONNACK that came in two pieces. -/
theorem answerReal_split_connack :
    ∃ w : World Script, w.client.state = .mqttConnected ∧ Acceptance (inbound w.connection) := by
  obtain ⟨w, hr, -, hstate, hkept, hin⟩ := exists_reachable
    (P := fun w => w.client.state = .mqttConnected ∧ Kept w.connection ∧
      inbound w.connection = [0x20, 2, 1, 0])
    (Script.config 64 64 60000 none)
    ⟨[], [⟨statusOk, [0x20]⟩, ⟨statusOk, [2, 1, 0]⟩], [], []⟩
    [.request .connect, .poll, .poll, .poll] (by decide) (by decide +kernel)
  have hgood : ¬ Misread w.client.rxBufferSize (inbound w.connection) := by
    rw [hin]
    rintro ⟨header, hfirst, -, -, -, -, hbad⟩
    cases hfirst
    revert hbad
    decide
  exact ⟨w, hstate, ((answerReal_iff hr hkept).1 hgood).1 (Or.inl hstate)⟩

/-- A CONNACK whose remaining length 2 is spelled with two bytes refuses the connection with return
code 5. The decoder takes the byte before it for the return code, and the client is connected. -/
theorem refusal_connects :
    ∃ w : World Script, Reachable w ∧ Kept w.connection ∧ Refusal (inbound w.connection) ∧
      w.client.state = .mqttConnected := by
  obtain ⟨w, hr, -, hkept, hin, hstate⟩ := exists_reachable
    (P := fun w => Kept w.connection ∧ inbound w.connection = [0x20, 0x82, 0, 0, 5] ∧
      w.client.state = .mqttConnected)
    (Script.config 64 64 60000 none) ⟨[], [⟨statusOk, [0x20, 0x82, 0, 0, 5]⟩], [], []⟩
    [.request .connect, .poll, .poll] (by decide) (by decide +kernel)
  refine ⟨w, hr, hkept, ?_, hstate⟩
  rw [hin]
  exact ⟨_, rfl, rfl, by decide, by decide⟩

end Aemlib
