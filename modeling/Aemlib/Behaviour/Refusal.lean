import Aemlib.Ghost
import Aemlib.Proto.Overlay
import Aemlib.Script

/-!
# What a refused call leaves behind

A call that is refused should leave no mark. Two kinds of call do work before they find out that
they are refused: `aemlib_connect` empties both buffers before it looks at the state, and a send
encodes its packet at the front of `tx_buffer` before it looks whether bytes are staged there. When
each of them is harmless all the same is pinned down here.
-/

namespace Aemlib

open Machine Proto

variable {σ : Type}

/-! ## A refused connect -/

/-- `w'` is `w` for all that comes after: the same client in the same environment, and whatever is
called, both runs answer the same, end the same and add the same events. -/
structure Unnoticed (w w' : World σ) : Prop where
  client : w'.client = w.client
  env : w'.env = w.env
  runs : ∀ calls, (∃ fault, run calls w = .error fault ∧ run calls w' = .error fault) ∨
    ∃ r c env new, run calls w = .ok (r, ⟨c, env, new ++ w.trace⟩) ∧
      run calls w' = .ok (r, ⟨c, env, new ++ w'.trace⟩)

theorem unnoticed_of_client {w w' : World σ} (hc : w'.client = w.client) (he : w'.env = w.env) :
    Unnoticed w w' where
  client := hc
  env := he
  runs calls := by
    have hw' : w' = ⟨w.client, w.env, w'.trace⟩ := by rw [← hc, ← he]
    rw [hw']
    rcases run_of_past calls w.client w.env with ⟨fault, h⟩ | ⟨r, c, env, new, h⟩
    · exact Or.inl ⟨fault, h w.trace, h w'.trace⟩
    · exact Or.inr ⟨r, c, env, new, h w.trace, h w'.trace⟩

/-- **When a refused connect changes nothing.** In every state but `DISCONNECTED` it reports
`STATE_INVALID`; it goes unnoticed exactly if no packet is half read or half sent. -/
theorem connect_refused_iff {w : World σ} (hstate : w.client.state ≠ .disconnected) :
    ∃ w', connect w = .ok (.error stateInvalid, w') ∧
      (Unnoticed w w' ↔ w.client.rxLen = 0 ∧ w.client.txPendingLen = 0) := by
  have hrun := connect_eq w
  rw [if_neg hstate] at hrun
  refine ⟨_, hrun, ?_⟩
  constructor
  · intro h
    have hrx : (0 : Nat) = w.client.rxLen := congrArg Client.rxLen h.client
    have htx : (0 : Nat) = w.client.txPendingLen := congrArg Client.txPendingLen h.client
    exact ⟨hrx.symm, htx.symm⟩
  · intro h
    have hsame : ({ w.client with
        txPendingLen := w.client.txPendingLen, rxLen := w.client.rxLen } : Client σ) = w.client :=
      rfl
    rw [h.1, h.2] at hsame
    exact unnoticed_of_client hsame rfl

/-- A connected client with nothing half read and nothing staged. -/
theorem connect_refused_iff_idle :
    ∃ w w' : World Script, Reachable w ∧ w.client.state = .mqttConnected ∧
      connect w = .ok (.error stateInvalid, w') ∧ Unnoticed w w' := by
  obtain ⟨w, hr, -, hstate, hidle⟩ := exists_reachable
    (P := fun w => w.client.state = .mqttConnected ∧ w.client.rxLen = 0 ∧
      w.client.txPendingLen = 0)
    (Script.config 64 64 60000 none) ⟨[], [⟨statusOk, [0x20, 2, 0, 0]⟩], [], []⟩
    [.request .connect, .poll, .poll] (by decide) (by decide +kernel)
  obtain ⟨w', hrun, hiff⟩ := connect_refused_iff (w := w) (by rw [hstate]; decide)
  exact ⟨w, w', hr, hstate, hrun, hiff.mpr hidle⟩

/-- The first byte of a PUBLISH has come in with the CONNACK, and two bytes of a PUBLISH of our own
are still staged. The refused call drops both. -/
theorem connect_refused_drops :
    ∃ w w' : World Script, Reachable w ∧ w.client.state = .mqttConnected ∧
      connect w = .ok (.error stateInvalid, w') ∧ w.client.held = [0x30] ∧
      w'.client.held = [] ∧ w.client.staged = [2, 3] ∧ w'.client.staged = [] ∧
      ¬ Unnoticed w w' := by
  obtain ⟨w, hr, -, hstate, hheld, hstaged⟩ := exists_reachable
    (P := fun w => w.client.state = .mqttConnected ∧ w.client.held = [0x30] ∧
      w.client.staged = [2, 3])
    (Script.config 64 64 60000 none)
    ⟨[], [⟨statusOk, [0x20, 2, 0, 0, 0x30]⟩], [⟨statusOk, 14⟩, ⟨statusOk, 6⟩], []⟩
    [.request .connect, .poll, .poll, Script.publishA [1, 2, 3]] (by decide) (by decide +kernel)
  have hne : w.client.state ≠ .disconnected := by rw [hstate]; decide
  have hrun := connect_eq w
  rw [if_neg hne] at hrun
  refine ⟨w, _, hr, hstate, hrun, hheld, rfl, hstaged, rfl, ?_⟩
  intro h
  have hsame : ([] : List UInt8) = w.client.held := congrArg Client.held h.client
  rw [hheld] at hsame
  cases hsame

/-! ## A refused send -/

/-- The four ways to send a packet: two calls of the user, and the two sends a poll makes. -/
inductive Attempt where
  | publish (topic : { t : List UInt8 // t.length < 2 ^ 63 }) (payload : List UInt8) (qos : Int)
  | subscribe (topic : { t : List UInt8 // t.length < 2 ^ 63 }) (qos : Int)
  | ping
  | connect

def Attempt.run : Attempt → Api σ Unit
  | .publish topic payload qos => Aemlib.publish topic payload qos
  | .subscribe topic qos => Aemlib.subscribe topic qos
  | .ping => clientSendPing
  | .connect => clientSendConnect

/-- The packet an attempt encodes, if the arguments let it get that far. -/
def Attempt.packet (c : Client σ) : Attempt → Option Packet
  | .publish topic payload qos => if qos = 0 then some (.publish topic payload) else none
  | .subscribe topic qos =>
    if qos = 0 then some (.subscribe (packetIdAfter c.packetId) topic) else none
  | .ping => some .pingreq
  | .connect => some c.connectPacket

def Attempt.Fits (c : Client σ) (a : Attempt) : Prop :=
  ∀ p ∈ a.packet c, 5 + p.body.length < 2 ^ 64

/-- An attempt that was refused: no call of the transport, and as many bytes staged as before. -/
structure RefusedSend (w : World σ) (r : Except Status Unit) (w' : World σ) : Prop where
  refused : ∃ status, r = .error status
  env : w'.env = w.env
  quiet : ∃ marks, w'.trace = marks ++ w.trace ∧ ∀ data res, .write data res ∉ marks
  pending : w'.client.txPendingLen = w.client.txPendingLen

/-- Wherever the encoder of `p` lays a byte among the first `n` of `size`, that byte is there
already. -/
def Harmless (p : Packet) (size n : Nat) (buf : List UInt8) : Prop :=
  ∀ i < n, ∀ b ∈ p.laid size i, buf[i]? = some b

instance (p : Packet) (size n : Nat) (buf : List UInt8) : Decidable (Harmless p size n buf) :=
  inferInstanceAs (Decidable (∀ i < n, ∀ b ∈ p.laid size i, buf[i]? = some b))

/-- Laying bytes over a buffer leaves its first `n` as they are exactly if they are there
already. -/
theorem take_eq_iff_harmless {p : Packet} {size n : Nat} {buf buf' : List UInt8}
    (hcells : ∀ i, buf'[i]? = (p.laid size i).or buf[i]?) :
    buf'.take n = buf.take n ↔ Harmless p size n buf := by
  constructor
  · intro h i hi b hb
    have hsame : (buf'.take n)[i]? = (buf.take n)[i]? := by rw [h]
    rw [List.getElem?_take_of_lt hi, List.getElem?_take_of_lt hi, hcells,
      Option.mem_def.mp hb, Option.some_or] at hsame
    exact hsame.symm
  · intro h
    apply List.ext_getElem?
    intro i
    by_cases hi : i < n
    · rw [List.getElem?_take_of_lt hi, List.getElem?_take_of_lt hi, hcells]
      cases hlaid : p.laid size i with
      | none => rw [Option.none_or]
      | some b => rw [Option.some_or, h i hi b hlaid]
    · rw [List.getElem?_eq_none (by rw [List.length_take]; omega),
        List.getElem?_eq_none (by rw [List.length_take]; omega)]

/-- The send path with bytes staged: refused, after the encoder has been over `tx_buffer`. -/
theorem encodeAndSend_refused {w : World σ} {p : Packet} (hs : w.client.Sound)
    (hpos : 0 < w.client.txPendingLen) (hfits : 5 + p.body.length < 2 ^ 64) :
    ∃ r w', encodeAndSend p w = .ok (r, w') ∧ RefusedSend w r w' ∧
      (w'.client.staged = w.client.staged ↔
        Harmless p w.client.txBufferSize w.client.txPendingLen w.client.txBuffer) := by
  obtain ⟨r, e, henc, hcells⟩ := encode_lays (e := ⟨w.client.txBuffer, 0, 0⟩) p hs.txSize
    hs.txLength rfl hfits
  unfold encodeAndSend
  simp only [run_getClient_bind, run_mark_bind, henc, Prog.run_ofExcept_ok_bind,
    run_modifyClient_bind]
  cases r with
  | error status =>
    refine ⟨_, _, rfl, ⟨⟨status, rfl⟩, rfl, ⟨[_], rfl, by simp⟩, rfl⟩, ?_⟩
    exact take_eq_iff_harmless hcells
  | ok u =>
    refine ⟨_, _, clientSend_refused hpos, ⟨⟨_, rfl⟩, rfl, ⟨[_, _], rfl, by simp⟩, rfl⟩, ?_⟩
    exact take_eq_iff_harmless hcells

/-- **When a refused send leaves the staged packet intact.** With bytes staged every send is
refused, nothing is written and as much stays staged. The staged bytes stay what they are exactly
if the packet is not encoded at all or its encoder lays over them the bytes that are there. -/
theorem refused_send_iff {w : World σ} {a : Attempt} (hs : w.client.Sound)
    (hpos : 0 < w.client.txPendingLen) (hfits : a.Fits w.client) :
    ∃ r w', a.run w = .ok (r, w') ∧ RefusedSend w r w' ∧
      (w'.client.staged = w.client.staged ↔ ∀ p ∈ a.packet w.client,
        Harmless p w.client.txBufferSize w.client.txPendingLen w.client.txBuffer) := by
  -- an attempt turned down for its QoS has not touched anything
  have hnone : RefusedSend w (.error (mkStatus .general .unsupported)) w :=
    ⟨⟨_, rfl⟩, rfl, ⟨[], rfl, by simp⟩, rfl⟩
  cases a with
  | publish topic payload qos =>
    rw [show (Attempt.publish topic payload qos).run w = publish topic payload qos w from rfl,
      publish_eq]
    unfold Attempt.Fits Attempt.packet at *
    split
    · next hq =>
      simp only [if_pos hq, Option.mem_some_iff, forall_eq'] at hfits ⊢
      exact encodeAndSend_refused hs hpos hfits
    · next hq =>
      refine ⟨_, _, rfl, hnone, ?_⟩
      simp [hq]
  | subscribe topic qos =>
    rw [show (Attempt.subscribe topic qos).run w = subscribe topic qos w from rfl, subscribe_eq]
    unfold Attempt.Fits Attempt.packet at *
    split
    · next hq =>
      simp only [if_pos hq, Option.mem_some_iff, forall_eq'] at hfits ⊢
      -- the packet id is taken even so; the buffer does not depend on it
      obtain ⟨r, w', hrun, href, hiff⟩ := encodeAndSend_refused
        (w := ⟨{ w.client with packetId := packetIdAfter w.client.packetId }, w.env, w.trace⟩)
        { hs with } hpos hfits
      exact ⟨r, w', hrun, ⟨href.refused, href.env, href.quiet, href.pending⟩, hiff⟩
    · next hq =>
      refine ⟨_, _, rfl, hnone, ?_⟩
      simp [hq]
  | ping =>
    unfold Attempt.Fits Attempt.packet at *
    simp only [Option.mem_some_iff, forall_eq'] at hfits ⊢
    exact encodeAndSend_refused hs hpos hfits
  | connect =>
    unfold Attempt.Fits Attempt.packet at *
    simp only [Option.mem_some_iff, forall_eq'] at hfits ⊢
    exact encodeAndSend_refused hs hpos hfits

/-- A PUBLISH that is staged whole, and the same PUBLISH again. -/
theorem refused_send_iff_again :
    ∃ w w' : World Script, Reachable w ∧ w.client.staged = [0x30, 4, 0, 1, 0x61, 1] ∧
      (∃ status, publish [0x61] [1] 0 w = .ok (.error status, w')) ∧
      w'.client.staged = w.client.staged := by
  obtain ⟨w, hr, -, hstaged, hpos, hharm⟩ := exists_reachable
    (P := fun w => w.client.staged = [0x30, 4, 0, 1, 0x61, 1] ∧ 0 < w.client.txPendingLen ∧
      Harmless (.publish [0x61] [1]) w.client.txBufferSize w.client.txPendingLen
        w.client.txBuffer)
    (Script.config 64 64 60000 none)
    ⟨[], [⟨statusOk, [0x20, 2, 0, 0]⟩], [⟨statusOk, 14⟩, ⟨ioWouldBlock, 0⟩], []⟩
    [.request .connect, .poll, .poll, Script.publishA [1]] (by decide) (by decide +kernel)
  obtain ⟨r, w', hrun, href, hiff⟩ := refused_send_iff (w := w)
    (a := .publish ⟨[0x61], Nat.one_lt_two_pow (by decide)⟩ [1] 0) hr.sound hpos
    (by simp [Attempt.Fits, Attempt.packet, Packet.body, lengthPrefixed, uint16Be])
  obtain ⟨status, rfl⟩ := href.refused
  refine ⟨w, w', hr, hstaged, ⟨status, hrun⟩, hiff.mpr ?_⟩
  intro p hp
  rw [← Option.some.inj (show some (Packet.publish [0x61] [1]) = some p from hp)]
  exact hharm

/-- A PUBLISH is staged whole; the next one is refused and is now staged in its place. -/
theorem refused_send_overwrites :
    ∃ w w' : World Script, Reachable w ∧ w.client.staged = (Packet.publish [0x61] [1]).bytes ∧
      publish [0x61] [2] 0 w = .ok (.error ioWouldBlock, w') ∧
      w'.client.staged = (Packet.publish [0x61] [2]).bytes ∧
      w'.client.staged ≠ w.client.staged := by
  obtain ⟨w, hr, -, hstaged, r, w', hrun, rfl, hstaged'⟩ := exists_reachable
    (P := fun w => w.client.staged = (Packet.publish [0x61] [1]).bytes ∧
      (publish [0x61] [2] 0).Returns w fun r w' => r = .error ioWouldBlock ∧
        w'.client.staged = (Packet.publish [0x61] [2]).bytes)
    (Script.config 64 64 60000 none)
    ⟨[], [⟨statusOk, [0x20, 2, 0, 0]⟩], [⟨statusOk, 14⟩, ⟨ioWouldBlock, 0⟩], []⟩
    [.request .connect, .poll, .poll, Script.publishA [1]] (by decide) (by decide +kernel)
  refine ⟨w, w', hr, hstaged, hrun, hstaged', ?_⟩
  rw [hstaged', hstaged]
  decide

end Aemlib
