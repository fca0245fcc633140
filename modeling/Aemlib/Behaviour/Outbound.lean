import Aemlib.Script
import Aemlib.Trace

/-!
# The outbound stream

What goes out on a connection should be the packets whose sends reported OK, one after the other,
with CONNECT first and once. The library keeps to this as long as nothing is staged when a packet
is encoded: the encoders write at the front of `tx_buffer`, and so do the staged bytes.
-/

namespace Aemlib

open Machine Proto

variable {σ : Type}

/-! ## Accounting -/

/-- Nothing was staged when a send path encoded a packet, or `aemlib_connect` was refused. -/
def Event.Clear : Event → Prop
  | .encode _ pending _ => pending = 0
  | .connectCall _ pending => pending = 0
  | _ => True

instance : DecidablePred Event.Clear
  | .encode _ pending _ => inferInstanceAs (Decidable (pending = 0))
  | .connectCall _ pending => inferInstanceAs (Decidable (pending = 0))
  | .init | .connect _ | .disconnect _ | .read _ _ | .write _ _ | .now _ | .message _ _
  | .refused _ _ | .sent _ => inferInstanceAs (Decidable True)

/-- Every send, and every refused `aemlib_connect`, found nothing staged. -/
abbrev SendsClear : List Event → Prop := Throughout fun e _ => e.Clear

/-- What the transport took and what is staged are the packets sent. -/
def Link.Accounted (l : Link) : Prop :=
  accepted (sinceConnect l.trace) ++ l.staged =
    (sentPackets (sinceConnect l.trace)).flatMap Packet.bytes

theorem accounted_step {l l' : Link} (hstep : Link.Step l l')
    (hl : l.state ≠ .disconnected → SendsClear (sinceConnect l.trace) → l.Accounted) :
    l'.state ≠ .disconnected → SendsClear (sinceConnect l'.trace) → l'.Accounted := by
  intro hstate hclear
  unfold Link.Accounted at hl ⊢
  cases hstep with
  | init size hello => exact absurd rfl hstate
  | flushFailed res hne hres =>
    simp only [sinceConnect, accepted, sentPackets, WriteResult.taken_of_hardError hres,
      List.append_nil]
    exact hl hstate hclear.2
  | flushed res hne hres hle =>
    simp only [sinceConnect, accepted, sentPackets, List.append_assoc,
      WriteResult.taken_append_drop hres]
    exact hl hstate hclear.2
  | encodeFailed p staged' hp hlen =>
    obtain ⟨hzero, hclear⟩ := hclear
    -- a failing encoder scribbles over what is staged, and nothing is
    have hnil : staged' = l.staged := by
      rw [List.eq_nil_of_length_eq_zero hzero, List.eq_nil_of_length_eq_zero (hlen.trans hzero)]
    simp only [sinceConnect, accepted, sentPackets, hnil]
    exact hl hstate hclear
  | sendRefused p staged' hp hne hlen =>
    have hzero : l.staged.length = 0 := hclear.2.1
    exact absurd (List.eq_nil_of_length_eq_zero hzero) hne
  | sendFailed p res hp hnil hres =>
    simp only [sinceConnect, accepted, sentPackets, WriteResult.taken_of_hardError hres,
      List.append_nil]
    exact hl hstate hclear.2.2
  | sent p res hp hnil hres =>
    have := hl hstate hclear.2.2.2
    rw [hnil, List.append_nil] at this
    simp only [sinceConnect, accepted, sentPackets, List.append_assoc,
      WriteResult.taken_append_drop hres, List.flatMap_append, List.flatMap_singleton, this]
  | connectCall hs => rfl
  | connectRefused hs =>
    rw [sinceConnect_connectRefused hs] at hclear ⊢
    obtain ⟨hzero, hclear⟩ := hclear
    have := hl hstate hclear
    rw [List.eq_nil_of_length_eq_zero hzero] at this
    exact this
  | opened ms hs => exact hl (by rw [hs]; decide) hclear.2.2
  | accepted res n hs => exact hl (by rw [hs]; decide) hclear.2
  | disconnectCall hs => exact hl (by rw [hs]; decide) hclear
  | openFailed status hs hst => exact absurd rfl hstate
  | openMissing hs => exact absurd rfl hstate
  | awaitFailed res status hs hres => exact absurd rfl hstate
  | rejected res why status held' hs => exact absurd rfl hstate
  | timedOut status hs => exact absurd rfl hstate
  | closed status hs => exact absurd rfl hstate
  | clock ms => exact hl hstate hclear.2
  | noted ms hs => exact hl hstate hclear
  | openBlocked status hs hst => exact hl hstate hclear.2
  | awaiting res hs => exact hl hstate hclear.2
  | read len res held' hs => exact hl hstate hclear.2
  | message topic payload hs => exact hl hstate hclear.2
  | consumed held' hs => exact hl hstate hclear

/-- **Outbound stream integrity.** In every run, while a connection lasts and as long as every send
on it (and every refused `aemlib_connect`) found nothing staged, the bytes the transport has taken
and the bytes staged are the packets sent. -/
theorem outbound_accounted {w : World σ} (h : Reachable w) (hstate : w.client.state ≠ .disconnected)
    (hclear : SendsClear w.connection) :
    accepted w.connection ++ w.client.staged =
      (sentPackets w.connection).flatMap Packet.bytes := by
  have := h.invariant
    (P := fun l => l.state ≠ .disconnected → SendsClear (sinceConnect l.trace) → l.Accounted)
    (fun _ _ _ hs => absurd rfl hs) accounted_step
  exact this hstate hclear

/-- With nine bytes of a CONNECT still staged. -/
theorem outbound_accounted_partial_connect :
    ∃ w : World Script, w.client.state = .mqttConnectSent ∧ w.client.staged.length = 9 ∧
      accepted w.connection ++ w.client.staged =
        (sentPackets w.connection).flatMap Packet.bytes := by
  obtain ⟨w, hr, -, hstate, hstaged, hclear⟩ := exists_reachable
    (P := fun w => w.client.state = .mqttConnectSent ∧ w.client.staged.length = 9 ∧
      SendsClear w.connection)
    (Script.config 64 64 60000 none) ⟨[], [], [⟨statusOk, 5⟩], []⟩ [.request .connect, .poll]
    (by decide) (by decide +kernel)
  exact ⟨w, hstate, hstaged, outbound_accounted hr (by rw [hstate]; decide) hclear⟩

/-- A PUBLISH is staged whole; the next one is encoded over it and refused. The transport will be
given the packet that was refused in place of the one that was reported as sent. -/
theorem outbound_overwritten :
    ∃ w : World Script, Reachable w ∧ w.client.transport.Honest ∧
      w.client.state = .mqttConnected ∧
      accepted w.connection ++ w.client.staged ≠
        (sentPackets w.connection).flatMap Packet.bytes := by
  obtain ⟨w, hr, hsetup, hstate, hne⟩ := exists_reachable
    (P := fun w => w.client.state = .mqttConnected ∧
      accepted w.connection ++ w.client.staged ≠
        (sentPackets w.connection).flatMap Packet.bytes)
    (Script.config 64 64 60000 none)
    ⟨[], [⟨statusOk, [0x20, 2, 0, 0]⟩], [⟨statusOk, 14⟩, ⟨ioWouldBlock, 0⟩], []⟩
    [.request .connect, .poll, .poll, Script.publishA [1], Script.publishA [2]]
    (by decide) (by decide +kernel)
  refine ⟨w, hr, ?_, hstate, hne⟩
  rw [show w.client.transport = Script.transport from congrArg Setup.transport hsetup]
  exact Script.honest

/-! ## CONNECT comes first -/

/-- The transport is connected: its connect has succeeded and it has not been closed since. -/
def live : List Event → Bool
  | [] => false
  | .connect status :: t => status = statusOk || live t
  | .disconnect _ :: _ => false
  | _ :: t => live t

def wire : List Event → List UInt8
  | [] => []
  | .connect status :: t => if status = statusOk then [] else wire t
  | .write data res :: t => if live t then wire t ++ res.taken data else wire t
  | _ :: t => wire t

def Greeted (hello : Packet) (t : List Event) : Prop := live t = true ∧ hello.bytes <+: wire t

instance (hello : Packet) (t : List Event) : Decidable (Greeted hello t) :=
  inferInstanceAs (Decidable (_ ∧ _))

/-- A packet other than CONNECT is encoded, or `aemlib_connect` refused with bytes staged, only
once all of `hello` has gone out. What is sent while `DISCONNECTED` is not on the connection. -/
def Event.Greets (hello : Packet) (past : List Event) : Event → Prop
  | .encode s _ p => p.isConnect = true ∨ s = .disconnected ∨ Greeted hello past
  | .connectCall _ pending => pending = 0 ∨ Greeted hello past
  | _ => True

instance (hello : Packet) (past : List Event) : DecidablePred (Event.Greets hello past)
  | .encode _ _ _ => inferInstanceAs (Decidable (_ ∨ _ ∨ _))
  | .connectCall _ _ => inferInstanceAs (Decidable (_ ∨ _))
  | .init | .connect _ | .disconnect _ | .read _ _ | .write _ _ | .now _ | .message _ _
  | .refused _ _ | .sent _ => inferInstanceAs (Decidable True)

/-- Until all of `hello` has gone out, nothing else was sent. -/
abbrev GreetsFirst (hello : Packet) : List Event → Prop :=
  Throughout fun e past => e.Greets hello past

/-- Where a connection is with its CONNECT. -/
inductive Greeting (l : Link) : Prop
  /-- Not connected; what went out on the last connection began with CONNECT. -/
  | closed (hs : l.state = .disconnected) (hlive : live (sinceConnect l.trace) = false)
      (hwire : wire (sinceConnect l.trace) <+: l.hello.bytes ∨
        l.hello.bytes <+: wire (sinceConnect l.trace))
  /-- The transport is connecting. -/
  | opening (hs : l.state = .connecting) (hlive : live (sinceConnect l.trace) = false)
      (hwire : wire (sinceConnect l.trace) = []) (hsent : l.connectSent = false)
      (hstaged : l.staged = [])
  /-- The transport is connected and nothing has gone out. -/
  | silent (hs : l.state ≠ .disconnected) (hc : l.state ≠ .connecting)
      (hlive : live (sinceConnect l.trace) = true)
      (hwire : wire (sinceConnect l.trace) = []) (hsent : l.connectSent = false)
      (hstaged : l.staged = [])
  /-- CONNECT is on its way. -/
  | greeting (hs : l.state ≠ .disconnected) (hc : l.state ≠ .connecting)
      (hlive : live (sinceConnect l.trace) = true) (hsent : l.connectSent = true)
      (hwire : wire (sinceConnect l.trace) ++ l.staged = l.hello.bytes)
  /-- CONNECT is out. -/
  | greeted (hs : l.state ≠ .disconnected) (hc : l.state ≠ .connecting)
      (hdone : Greeted l.hello (sinceConnect l.trace))

theorem Greeting.comparable {l : Link} (h : Greeting l) :
    wire (sinceConnect l.trace) <+: l.hello.bytes ∨
      l.hello.bytes <+: wire (sinceConnect l.trace) := by
  cases h with
  | closed hs hlive hwire => exact hwire
  | opening hs hlive hwire => exact Or.inl (hwire ▸ List.nil_prefix)
  | silent hs hc hlive hwire => exact Or.inl (hwire ▸ List.nil_prefix)
  | greeting hs hc hlive hsent hwire => exact Or.inl ⟨l.staged, hwire⟩
  | greeted hs hc hdone => exact Or.inr hdone.2

/-- While the transport is connecting there is nothing to send. -/
theorem Greeting.of_connecting {l : Link} (h : Greeting l) (hstate : l.state = .connecting) :
    live (sinceConnect l.trace) = false ∧ wire (sinceConnect l.trace) = [] ∧
      l.connectSent = false ∧ l.staged = [] := by
  cases h with
  | closed hs =>
    rw [hs] at hstate
    cases hstate
  | opening hs hl hw hn hst => exact ⟨hl, hw, hn, hst⟩
  | silent hs hc => exact absurd hstate hc
  | greeting hs hc => exact absurd hstate hc
  | greeted hs hc => exact absurd hstate hc

/-- Steps that send nothing and neither open nor close the transport change nothing. -/
theorem Greeting.congr {l l' : Link} (h : Greeting l)
    (hd : l'.state = .disconnected ↔ l.state = .disconnected)
    (hc : l'.state = .connecting ↔ l.state = .connecting)
    (hsent : l'.connectSent = l.connectSent) (hstaged : l'.staged = l.staged)
    (hhello : l'.hello = l.hello)
    (hlive : live (sinceConnect l'.trace) = live (sinceConnect l.trace))
    (hwire : wire (sinceConnect l'.trace) = wire (sinceConnect l.trace)) : Greeting l' := by
  cases h with
  | closed hs hl hw => exact .closed (hd.mpr hs) (hlive.trans hl) (by rw [hhello, hwire]; exact hw)
  | opening hs hl hw hn hst =>
    exact .opening (hc.mpr hs) (hlive.trans hl) (hwire.trans hw) (hsent.trans hn)
      (hstaged.trans hst)
  | silent hs hs' hl hw hn hst =>
    exact .silent (mt hd.mp hs) (mt hc.mp hs') (hlive.trans hl) (hwire.trans hw) (hsent.trans hn)
      (hstaged.trans hst)
  | greeting hs hs' hl hn hw =>
    exact .greeting (mt hd.mp hs) (mt hc.mp hs') (hlive.trans hl) (hsent.trans hn)
      (by rw [hhello, hwire, hstaged]; exact hw)
  | greeted hs hs' hdone =>
    refine .greeted (mt hd.mp hs) (mt hc.mp hs') ?_
    rw [Greeted, hhello, hlive, hwire]
    exact hdone

/-- The transport was asked to take staged bytes. -/
theorem Greeting.write {l : Link} {res : WriteResult} {staged' : List UInt8} (h : Greeting l)
    (htaken : res.taken l.staged ++ staged' = l.staged) :
    Greeting { l with staged := staged', trace := .write l.staged res :: l.trace } := by
  cases h with
  | closed hs hl hw => exact .closed hs hl (by simpa [sinceConnect, wire, hl] using hw)
  | opening hs hl hw hn hst =>
    rw [hst] at htaken
    refine .opening hs hl (by simpa [sinceConnect, wire, hl] using hw) hn ?_
    exact (List.append_eq_nil_iff.mp htaken).2
  | silent hs hs' hl hw hn hst =>
    rw [hst] at htaken
    obtain ⟨ht, hst'⟩ := List.append_eq_nil_iff.mp htaken
    refine .silent hs hs' hl ?_ hn hst'
    simp [sinceConnect, wire, hl, hw, hst, ht]
  | greeting hs hs' hl hn hw =>
    refine .greeting hs hs' hl hn ?_
    simpa [sinceConnect, wire, hl, htaken] using hw
  | greeted hs hs' hdone =>
    refine .greeted hs hs' ⟨hdone.1, ?_⟩
    simpa [sinceConnect, wire, hdone.1] using hdone.2.trans (List.prefix_append _ _)

/-- When a packet may be encoded: on no connection, behind the CONNECT, or as the CONNECT. -/
theorem Greeting.encoding {l : Link} {p : Packet} (h : Greeting l) (hp : l.MaySend p)
    (hfirst : p.isConnect = true ∨ l.state = .disconnected ∨
      Greeted l.hello (sinceConnect l.trace)) :
    (l.state = .disconnected ∧ live (sinceConnect l.trace) = false) ∨
      (l.state ≠ .disconnected ∧ l.state ≠ .connecting ∧
        Greeted l.hello (sinceConnect l.trace)) ∨
      (l.state = .mqttConnectSent ∧ p = l.hello ∧ p.isConnect = true ∧
        live (sinceConnect l.trace) = true ∧ wire (sinceConnect l.trace) = [] ∧
        l.connectSent = false ∧ l.staged = []) := by
  cases h with
  | closed hs hl hw => exact Or.inl ⟨hs, hl⟩
  -- the transport is not open yet: no call encodes here
  | opening hs hl hw hn hst =>
    rcases hfirst with hc | hd | hg
    · rw [(hp hc).2.1] at hs
      cases hs
    · rw [hd] at hs
      cases hs
    · rw [hg.1] at hl
      cases hl
  -- the one phase in which CONNECT itself is encoded
  | silent hs hs' hl hw hn hst =>
    rcases hfirst with hc | hd | hg
    · exact Or.inr (Or.inr ⟨(hp hc).2.1, (hp hc).1, hc, hl, hw, hn, hst⟩)
    · exact absurd hd hs
    · exact Or.inr (Or.inl ⟨hs, hs', hg⟩)
  -- CONNECT is reported sent: it is not encoded again
  | greeting hs hs' hl hn hw =>
    rcases hfirst with hc | hd | hg
    · rw [(hp hc).2.2] at hn
      cases hn
    · exact absurd hd hs
    · exact Or.inr (Or.inl ⟨hs, hs', hg⟩)
  | greeted hs hs' hdone => exact Or.inr (Or.inl ⟨hs, hs', hdone⟩)

theorem greeting_step {l l' : Link} (hstep : Link.Step l l')
    (hl : GreetsFirst l.hello (sinceConnect l.trace) → Greeting l) :
    GreetsFirst l'.hello (sinceConnect l'.trace) → Greeting l' := by
  intro hfirst
  cases hstep with
  | init size hello => exact .closed rfl rfl (Or.inl List.nil_prefix)
  | flushFailed res hne hres =>
    exact (hl hfirst.2).write (by rw [WriteResult.taken_of_hardError hres]; rfl)
  | flushed res hne hres hle => exact (hl hfirst.2).write (WriteResult.taken_append_drop hres _)
  | encodeFailed p staged' hp hlen =>
    obtain ⟨hnow, hbefore⟩ := hfirst
    have hgreet := hl hbefore
    rcases hgreet.encoding hp hnow with ⟨hs, hlive⟩ | ⟨hs, hc, hdone⟩ |
      ⟨hs, -, -, hlive, hwire, hsent, hstaged⟩
    · exact .closed hs hlive hgreet.comparable
    · exact .greeted hs hc hdone
    · refine .silent (by rw [hs]; decide) (by rw [hs]; decide) hlive hwire hsent ?_
      rw [hstaged] at hlen
      exact List.eq_nil_of_length_eq_zero hlen
  | sendRefused p staged' hp hne hlen =>
    obtain ⟨-, hnow, hbefore⟩ := hfirst
    have hgreet := hl hbefore
    rcases hgreet.encoding hp hnow with ⟨hs, hlive⟩ | ⟨hs, hc, hdone⟩ |
      ⟨hs, -, -, hlive, hwire, hsent, hstaged⟩
    · exact .closed hs hlive hgreet.comparable
    · exact .greeted hs hc hdone
    · exact absurd hstaged hne
  | sendFailed p res hp hnil hres =>
    obtain ⟨-, hnow, hbefore⟩ := hfirst
    have hgreet := hl hbefore
    have hwire' : wire (sinceConnect (.write p.bytes res :: .encode l.state 0 p :: l.trace)) =
        wire (sinceConnect l.trace) := by
      simp [sinceConnect, wire, WriteResult.taken_of_hardError hres]
    rcases hgreet.encoding hp hnow with ⟨hs, hlive⟩ | ⟨hs, hc, hdone⟩ |
      ⟨hs, -, -, hlive, hwire, hsent, hstaged⟩
    · exact .closed hs hlive (by rw [hwire']; exact hgreet.comparable)
    · exact .greeted hs hc ⟨hdone.1, by rw [hwire']; exact hdone.2⟩
    · exact .silent (by rw [hs]; decide) (by rw [hs]; decide) hlive (hwire'.trans hwire) hsent
        hstaged
  | sent p res hp hnil hres =>
    obtain ⟨-, -, hnow, hbefore⟩ := hfirst
    have hgreet := hl hbefore
    -- no connection; CONNECT is out already; or this is CONNECT
    rcases hgreet.encoding hp hnow with ⟨hs, hlive⟩ | ⟨hs, hc, hdone⟩ |
      ⟨hs, rfl, hconn, hlive, hwire, hsent, hstaged⟩
    · refine .closed hs hlive ?_
      simpa [sinceConnect, wire, live, hlive] using hgreet.comparable
    · refine .greeted hs hc ⟨hdone.1, ?_⟩
      simpa [sinceConnect, wire, live, hdone.1] using hdone.2.trans (List.prefix_append _ _)
    · refine .greeting (by rw [hs]; decide) (by rw [hs]; decide) hlive (by simp [hconn]) ?_
      simp [sinceConnect, wire, live, hlive, hwire, WriteResult.taken_append_drop hres]
  | connectCall hs => exact .opening rfl rfl rfl rfl rfl
  | connectRefused hs =>
    rw [sinceConnect_connectRefused hs] at hfirst
    obtain ⟨hnow, hbefore⟩ := hfirst
    have hgreet := hl hbefore
    have hlive' : live (sinceConnect (.connectCall l.state l.staged.length :: l.trace)) =
        live (sinceConnect l.trace) := by
      rw [sinceConnect_connectRefused hs]
      rfl
    have hwire' : wire (sinceConnect (.connectCall l.state l.staged.length :: l.trace)) =
        wire (sinceConnect l.trace) := by
      rw [sinceConnect_connectRefused hs]
      rfl
    -- a refused `aemlib_connect` drops what is staged: nothing, or bytes behind CONNECT
    rcases hnow with hzero | hdone
    · exact hgreet.congr Iff.rfl Iff.rfl rfl (List.eq_nil_of_length_eq_zero hzero).symm rfl hlive'
        hwire'
    · refine .greeted hs (fun hc => ?_) ⟨hlive'.trans hdone.1, by rw [hwire']; exact hdone.2⟩
      have := (hgreet.of_connecting hc).1
      rw [hdone.1] at this
      cases this
  | disconnectCall hs =>
    exact (hl hfirst).congr (by simp [hs]) (by simp [hs]) rfl rfl rfl rfl rfl
  | opened ms hs =>
    obtain ⟨-, -, hsent, hstaged⟩ := (hl hfirst.2.2).of_connecting hs
    exact .silent (by simp) (by simp) rfl rfl hsent hstaged
  | openBlocked status hs hst =>
    have hne : status ≠ statusOk := hst.ne_ok
    exact (hl hfirst.2).congr Iff.rfl Iff.rfl rfl rfl rfl (by simp [sinceConnect, live, hne])
      (by simp [sinceConnect, wire, hne])
  | openFailed status hs hst =>
    obtain ⟨hlive, hwire, -, -⟩ := (hl hfirst.2).of_connecting hs
    refine .closed rfl (by simpa [sinceConnect, live, hst.1] using hlive) (Or.inl ?_)
    simp [sinceConnect, wire, hst.1, hwire]
  | openMissing hs =>
    obtain ⟨hlive, hwire, -, -⟩ := (hl hfirst).of_connecting hs
    exact .closed rfl hlive (Or.inl (by rw [hwire]; exact List.nil_prefix))
  | awaitFailed res status hs hres => exact .closed rfl rfl (hl hfirst.2.2).comparable
  | rejected res why status held' hs => exact .closed rfl rfl (hl hfirst.2.2).comparable
  | timedOut status hs => exact .closed rfl rfl (hl hfirst.2).comparable
  | closed status hs => exact .closed rfl rfl (hl hfirst.2).comparable
  | accepted res n hs =>
    exact (hl hfirst.2).congr (by simp [hs]) (by simp [hs]) rfl rfl rfl rfl rfl
  | clock ms => exact (hl hfirst.2).congr Iff.rfl Iff.rfl rfl rfl rfl rfl rfl
  | noted ms hs => exact (hl hfirst).congr Iff.rfl Iff.rfl rfl rfl rfl rfl rfl
  | awaiting res hs => exact (hl hfirst.2).congr Iff.rfl Iff.rfl rfl rfl rfl rfl rfl
  | read len res held' hs => exact (hl hfirst.2).congr Iff.rfl Iff.rfl rfl rfl rfl rfl rfl
  | message topic payload hs => exact (hl hfirst.2).congr Iff.rfl Iff.rfl rfl rfl rfl rfl rfl
  | consumed held' hs => exact (hl hfirst).congr Iff.rfl Iff.rfl rfl rfl rfl rfl rfl

/-- **CONNECT comes first.** In every run, as long as on the current connection no other packet was
encoded, and no `aemlib_connect` refused with bytes staged, before all of CONNECT was out: the
bytes the transport has taken since it connected are a part of CONNECT, or begin with CONNECT. -/
theorem connect_first {w : World σ} (h : Reachable w)
    (hfirst : GreetsFirst w.client.connectPacket w.connection) :
    wire w.connection <+: w.client.connectPacket.bytes ∨
      w.client.connectPacket.bytes <+: wire w.connection := by
  have := h.invariant (P := fun l => GreetsFirst l.hello (sinceConnect l.trace) → Greeting l)
    (fun _ _ _ _ => .closed rfl rfl (Or.inl List.nil_prefix)) greeting_step
  exact (this hfirst).comparable

/-- A CONNECT that trickles out, a CONNACK, and a PUBLISH behind it. -/
theorem connect_first_publish :
    ∃ w : World Script, w.client.state = .mqttConnected ∧ (wire w.connection).length = 20 ∧
      (wire w.connection <+: w.client.connectPacket.bytes ∨
        w.client.connectPacket.bytes <+: wire w.connection) := by
  obtain ⟨w, hr, -, hstate, hlen, hfirst⟩ := exists_reachable
    (P := fun w => w.client.state = .mqttConnected ∧ (wire w.connection).length = 20 ∧
      GreetsFirst w.client.connectPacket w.connection)
    (Script.config 64 64 60000 none)
    ⟨[], [⟨statusOk, [0x20, 2, 0, 0]⟩], [⟨statusOk, 5⟩], []⟩
    [.request .connect, .poll, .poll, Script.publishA [1]] (by decide) (by decide +kernel)
  exact ⟨w, hstate, hlen, connect_first hr hfirst⟩

/-- The CONNECT fails, and `aemlib_publish` does not mind: the first bytes on the connection are
those of a PUBLISH. -/
theorem publish_before_connect :
    ∃ w : World Script, Reachable w ∧ w.client.state = .mqttConnectSent ∧
      wire w.connection = (Packet.publish [0x61] [1]).bytes ∧
      ¬ (wire w.connection <+: w.client.connectPacket.bytes ∨
        w.client.connectPacket.bytes <+: wire w.connection) := by
  obtain ⟨w, hr, -, hstate, hwire, hnot⟩ := exists_reachable
    (P := fun w => w.client.state = .mqttConnectSent ∧
      wire w.connection = (Packet.publish [0x61] [1]).bytes ∧
      ¬ (wire w.connection <+: w.client.connectPacket.bytes ∨
        w.client.connectPacket.bytes <+: wire w.connection))
    (Script.config 64 64 60000 none) ⟨[], [], [⟨Script.ioError, 0⟩], []⟩
    [.request .connect, .poll, Script.publishA [1]] (by decide) (by decide +kernel)
  exact ⟨w, hr, hstate, hwire, hnot⟩

/-! ## CONNECT once -/

/-- The CONNECT packets handed over: sent, or left whole at the front of the staged bytes by a
send that was refused. -/
def connectsHanded : List Event → Nat
  | [] => 0
  | .sent p :: t => (if p.isConnect then 1 else 0) + connectsHanded t
  | .refused p staged :: t =>
    (if p.isConnect ∧ p.bytes <+: staged then 1 else 0) + connectsHanded t
  | _ :: t => connectsHanded t

/-- A CONNECT is encoded with fewer bytes staged than it has itself. -/
def Event.ConnectFits : Event → Prop
  | .encode _ pending p => p.isConnect = true → pending < p.bytes.length
  | _ => True

instance : DecidablePred Event.ConnectFits
  | .encode _ _ _ => inferInstanceAs (Decidable (_ → _))
  | .connectCall _ _ | .init | .connect _ | .disconnect _ | .read _ _ | .write _ _ | .now _
  | .message _ _ | .refused _ _ | .sent _ => inferInstanceAs (Decidable True)

abbrev ConnectFits : List Event → Prop := Throughout fun e _ => e.ConnectFits

/-- At most one CONNECT, and none yet where the next one may be sent. -/
def Link.ConnectOnce (l : Link) : Prop :=
  connectsHanded (sinceOpen l.trace) ≤ 1 ∧
    (l.state = .mqttConnectSent → l.connectSent = false → connectsHanded (sinceOpen l.trace) = 0)

theorem connectOnce_step {l l' : Link} (hstep : Link.Step l l')
    (hl : ConnectFits (sinceOpen l.trace) → l.ConnectOnce) :
    ConnectFits (sinceOpen l'.trace) → l'.ConnectOnce := by
  intro hfits
  cases hstep with
  | init size hello => exact ⟨Nat.zero_le 1, fun _ _ => rfl⟩
  | sendRefused p staged' hp hne hlen =>
    obtain ⟨-, hshort, hbefore⟩ := hfits
    -- too few bytes are staged to hold the whole packet
    have hnot : ¬ (p.isConnect = true ∧ p.bytes <+: staged') := by
      rintro ⟨hconn, hpre⟩
      have := hpre.length_le
      have := hshort hconn
      omega
    simpa [Link.ConnectOnce, sinceOpen, connectsHanded, hnot] using hl hbefore
  | sent p res hp hnil hres =>
    obtain ⟨hle, hzero⟩ := hl hfits.2.2.2
    cases hconn : p.isConnect with
    | true =>
      obtain ⟨-, hs, hsent⟩ := hp hconn
      simp [Link.ConnectOnce, sinceOpen, connectsHanded, hconn, hzero hs hsent]
    | false => simpa [Link.ConnectOnce, sinceOpen, connectsHanded, hconn] using And.intro hle hzero
  | opened ms hs => exact ⟨Nat.zero_le 1, fun _ _ => rfl⟩
  | openBlocked status hs hst =>
    rw [sinceOpen_connect hst.ne_ok] at hfits
    simpa [Link.ConnectOnce, sinceOpen_connect hst.ne_ok, connectsHanded] using hl hfits.2
  | openFailed status hs hst =>
    rw [sinceOpen_connect hst.1] at hfits
    simpa [Link.ConnectOnce, sinceOpen_connect hst.1, connectsHanded] using (hl hfits.2).1
  | encodeFailed p staged' hp hlen => exact hl hfits.2
  | sendFailed p res hp hnil hres => exact hl hfits.2.2
  | connectCall hs => exact ⟨(hl hfits.2).1, fun h _ => absurd h (by simp)⟩
  | disconnectCall hs => exact ⟨(hl hfits).1, fun h _ => absurd h (by simp)⟩
  | openMissing hs => exact ⟨(hl hfits).1, fun h _ => absurd h (by simp)⟩
  | awaitFailed res status hs hres => exact ⟨(hl hfits.2.2).1, fun h _ => absurd h (by simp)⟩
  | rejected res why status held' hs => exact ⟨(hl hfits.2.2).1, fun h _ => absurd h (by simp)⟩
  | accepted res n hs => exact ⟨(hl hfits.2).1, fun h _ => absurd h (by simp)⟩
  | timedOut status hs => exact ⟨(hl hfits.2).1, fun h _ => absurd h (by simp)⟩
  | closed status hs => exact ⟨(hl hfits.2).1, fun h _ => absurd h (by simp)⟩
  | clock ms => exact hl hfits.2
  | noted ms hs => exact hl hfits
  | flushFailed res hne hres => exact hl hfits.2
  | flushed res hne hres hle => exact hl hfits.2
  | connectRefused hs => exact hl hfits.2
  | awaiting res hs => exact hl hfits.2
  | read len res held' hs => exact hl hfits.2
  | message topic payload hs => exact hl hfits.2
  | consumed held' hs => exact hl hfits

/-- **At most one CONNECT.** In every run, as long as every CONNECT since the transport last
connected was encoded with fewer bytes staged than it has itself, at most one was handed over. -/
theorem connect_once {w : World σ} (h : Reachable w) (hfits : ConnectFits (sinceOpen w.trace)) :
    connectsHanded (sinceOpen w.trace) ≤ 1 := by
  have := h.invariant (P := fun l => ConnectFits (sinceOpen l.trace) → l.ConnectOnce)
    (fun _ _ _ _ => ⟨Nat.zero_le 1, fun _ _ => rfl⟩) connectOnce_step
  exact (this hfits).1

/-- A CONNECT that the transport refused and that was sent on the next poll. -/
theorem connect_once_retried :
    ∃ w : World Script, w.client.connectSent = true ∧
      connectsHanded (sinceOpen w.trace) ≤ 1 := by
  obtain ⟨w, hr, -, hsent, hfits⟩ := exists_reachable
    (P := fun w => w.client.connectSent = true ∧ ConnectFits (sinceOpen w.trace))
    (Script.config 64 64 60000 none) ⟨[], [], [⟨Script.ioError, 0⟩], []⟩
    [.request .connect, .poll, .poll] (by decide) (by decide +kernel)
  exact ⟨w, hsent, connect_once hr hfits⟩

/-- A PUBLISH made while the transport is connecting is staged; CONNECT is encoded over it and
refused, goes out in its place on the next poll, and is then sent once more. -/
theorem connect_twice :
    ∃ w : World Script, Reachable w ∧ connectsHanded (sinceOpen w.trace) = 2 ∧
      accepted (sinceOpen w.trace) =
        w.client.connectPacket.bytes ++ w.client.connectPacket.bytes := by
  obtain ⟨w, hr, -, hhanded, haccepted⟩ := exists_reachable
    (P := fun w => connectsHanded (sinceOpen w.trace) = 2 ∧
      accepted (sinceOpen w.trace) =
        w.client.connectPacket.bytes ++ w.client.connectPacket.bytes)
    (Script.config 64 64 60000 none) ⟨[], [], [⟨ioWouldBlock, 0⟩, ⟨ioWouldBlock, 0⟩], []⟩
    [.request .connect, Script.publishA [1, 2, 3, 4, 5, 6, 7, 8, 9], .poll, .poll]
    (by decide) (by decide +kernel)
  exact ⟨w, hr, hhanded, haccepted⟩

end Aemlib
