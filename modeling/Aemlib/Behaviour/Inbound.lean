import Aemlib.Behaviour.Bounds
import Aemlib.Trace

/-!
# Messages from a stream

Two receivers share `rx_buffer`: the CONNACK wait and the packet loop. However a stream is cut into
reads, what the callback is told depends on the bytes alone: the PUBLISH packets that are complete,
in order and once each, with the bytes behind them kept for later.
-/

namespace Aemlib

open Machine Proto

variable {σ : Type}

/-! ## Streams of packets -/

/-- A packet both decoders of the packet loop accept and `rx_buffer` can hold. -/
def WellFormed (size : Nat) (packet : List UInt8) : Prop :=
  ∃ header, decodeFixedHeader packet packet.length = .ok (.ok header) ∧
    header.packetLen = packet.length ∧ packet.length ≤ size ∧
    (header.type = .publish → ∃ view, decodePublish packet packet.length header = .ok (.ok view))

/-- The topic and the payload of a PUBLISH. -/
def messageOf (packet : List UInt8) : Option (List UInt8 × List UInt8) :=
  match decodeFixedHeader packet packet.length with
  | .ok (.ok header) =>
    if header.type = .publish then
      match decodePublish packet packet.length header with
      | .ok (.ok view) => some (view.message packet)
      | _ => none
    else none
  | _ => none

def connackBytes (session : UInt8) : List UInt8 := [0x20, 2, session, 0]

/-- The packets that lie wholly inside the first `n` bytes of the stream they make up. -/
def wholePackets : List (List UInt8) → Nat → List (List UInt8)
  | [], _ => []
  | p :: packets, n => if p.length ≤ n then p :: wholePackets packets (n - p.length) else []

theorem WellFormed.parse {size : Nat} {packet : List UInt8} (h : WellFormed size packet) :
    ∃ header, parseHeader packet = .ok header ∧ header.packetLen = packet.length ∧
      packet.length ≤ size ∧ packetMessage header packet = .ok (messageOf packet) := by
  obtain ⟨header, hdecode, hlen, hsize, hpub⟩ := h
  have hparse : parseHeader packet = .ok header := by
    rw [decodeFixedHeader_eq (Nat.le_refl _), List.take_length] at hdecode
    exact Except.ok.inj hdecode
  refine ⟨header, hparse, hlen, hsize, ?_⟩
  obtain ⟨-, hheader, -, hrem⟩ := parseHeader_bounds hparse
  have hview := decodePublish_eq (Nat.le_refl packet.length) hheader hrem
  rw [List.take_length] at hview
  unfold packetMessage messageOf
  simp only [hdecode]
  -- only of a PUBLISH is more asked than the header
  by_cases htype : header.type = .publish
  · obtain ⟨view, hok⟩ := hpub htype
    rw [hok] at hview
    simp only [htype, if_true, hok, ← Except.ok.inj hview]
  · rw [if_neg htype]
    split
    · next h => exact absurd h htype
    · rfl

/-- `held` is what is left of `bytes`, a part of a stream of packets, when the packets it begins
with are taken off and `msgs` delivered for them. `rest` are the packets of the stream behind. -/
def Parsed (packets rest : List (List UInt8)) (bytes : List UInt8)
    (msgs : List (List UInt8 × List UInt8)) (held : List UInt8) : Prop :=
  ∃ done, packets = done ++ rest ∧ bytes = done.flatten ++ held ∧ msgs = done.filterMap messageOf

def Delivered (packets : List (List UInt8)) (bytes : List UInt8)
    (msgs : List (List UInt8 × List UInt8)) (held : List UInt8) : Prop :=
  ∃ rest, Parsed packets rest bytes msgs held ∧ ∀ p ∈ rest.head?, held.length < p.length

/-- Taking off goes on where it stopped. -/
theorem Parsed.delivered {packets rest : List (List UInt8)} {bytes held more held' : List UInt8}
    {msgs msgs' : List (List UInt8 × List UInt8)} (h : Parsed packets rest bytes msgs held)
    (h' : Delivered rest (held ++ more) msgs' held') :
    Delivered packets (bytes ++ more) (msgs ++ msgs') held' := by
  obtain ⟨done, rfl, rfl, rfl⟩ := h
  obtain ⟨rest', ⟨done', rfl, hbytes, rfl⟩, hhead⟩ := h'
  refine ⟨rest', ⟨done ++ done', ?_, ?_, ?_⟩, hhead⟩
  · rw [List.append_assoc]
  · rw [List.append_assoc, hbytes, List.flatten_append, List.append_assoc]
  · rw [List.filterMap_append]

theorem wholePackets_append {done rest : List (List UInt8)} {n : Nat}
    (hhead : ∀ p ∈ rest.head?, n < p.length) :
    wholePackets (done ++ rest) (done.flatten.length + n) = done := by
  induction done with
  | nil =>
    cases rest with
    | nil => rfl
    | cons p rest =>
      have hlt : n < p.length := hhead p rfl
      simp only [List.nil_append, List.flatten_nil, List.length_nil, Nat.zero_add, wholePackets]
      rw [if_neg (by omega)]
  | cons p done ih =>
    simp only [List.cons_append, List.flatten_cons, List.length_append, wholePackets]
    rw [if_pos (by omega), show p.length + done.flatten.length + n - p.length =
      done.flatten.length + n by omega, ih]

/-- The messages and the bytes left, read off the stream. -/
theorem Delivered.eq {packets : List (List UInt8)} {bytes held : List UInt8}
    {msgs : List (List UInt8 × List UInt8)} (h : Delivered packets bytes msgs held) :
    msgs = (wholePackets packets bytes.length).filterMap messageOf ∧
      held = bytes.drop (wholePackets packets bytes.length).flatten.length := by
  obtain ⟨rest, ⟨done, rfl, rfl, rfl⟩, hhead⟩ := h
  rw [List.length_append, wholePackets_append hhead]
  exact ⟨rfl, by rw [List.drop_left]⟩

/-! ## The packet loop -/

def MessageFn.Quiet (f : MessageFn σ) : Prop := ∀ env topic payload, (f env topic payload).1 = []

/-- Dispatching a well-formed packet tells the callback its message, if it has one. -/
theorem clientDispatchPacket_delivers {w : World σ} {f : MessageFn σ} {header : FixedHeader}
    {packet more : List UInt8} (hs : w.client.Sound) (hf : w.client.onMessage = some f)
    (hquiet : f.Quiet) (hheld : w.client.held = packet ++ more)
    (hparse : parseHeader packet = .ok header) (hlen : header.packetLen = packet.length)
    (hmsg : packetMessage header packet = .ok (messageOf packet)) :
    ∃ env t, clientDispatchPacket header header.packetLen w =
        .ok (.ok (), ⟨w.client, env, t ++ w.trace⟩) ∧
      inbound t = [] ∧ messages t = (messageOf packet).toList := by
  have hn : header.packetLen ≤ w.client.rxLen := by
    rw [hlen, ← hs.length_held, hheld, List.length_append]
    exact Nat.le_add_right _ _
  -- the header at the front of the bytes held is that of the packet
  have hparse' : parseHeader w.client.held = .ok header := by
    rw [hheld]
    exact parseHeader_append_ok more hparse
  have htake : w.client.held.take header.packetLen = packet := by
    rw [hheld, hlen, List.take_left]
  rw [clientDispatchPacket_eq hs hparse' hn, htake, hmsg, hf]
  cases messageOf packet with
  | none => exact ⟨w.env, [], rfl, rfl, rfl⟩
  | some m =>
    obtain ⟨topic, payload⟩ := m
    refine ⟨(f w.env topic payload).2, [.message topic payload], ?_, rfl, rfl⟩
    show callOnMessage f topic payload w = _
    unfold callOnMessage
    simp only [Prog.run_get_bind, Prog.run_set_bind, hquiet w.env topic payload]
    rfl

/-- The loop stops at a packet that is not complete. -/
theorem clientReadLoop_of_incomplete {w : World σ} {fuel : Nat} {packet : List UInt8}
    {header : FixedHeader} (hs : w.client.Sound) (hparse : parseHeader packet = .ok header)
    (hlen : header.packetLen = packet.length) (hsize : packet.length ≤ w.client.rxBufferSize)
    (hpre : w.client.held <+: packet) (hlt : w.client.held.length < packet.length) :
    clientReadLoop (fuel + 1) w = .ok (.ok (), w) := by
  have hrx := hs.length_held
  obtain ⟨more, hmore⟩ := hpre
  rw [← hmore] at hparse
  rw [clientReadLoop_succ fuel hs]
  rcases parseHeader_prefix hparse with herr | hok
  · -- not even the header is there; the buffer has room for more
    rw [herr]
    simp only [tooSmall_bufferTooSmall, if_true]
    rw [if_neg (by omega)]
  · rw [hok]
    simp only
    rw [if_neg (by omega), if_pos (by omega)]

/-- The loop on a part of a stream of packets takes off what is complete, and reports OK. -/
theorem clientReadLoop_delivers {w w' : World σ} {fuel : Nat} {r : Except Status Unit}
    {f : MessageFn σ} {packets : List (List UInt8)} (hs : w.client.Sound)
    (hf : w.client.onMessage = some f) (hquiet : f.Quiet)
    (hgood : ∀ p ∈ packets, WellFormed w.client.rxBufferSize p)
    (hpre : w.client.held <+: packets.flatten) (h : clientReadLoop fuel w = .ok (r, w')) :
    w'.client.state = w.client.state ∧ ∃ t, w'.trace = t ++ w.trace ∧ inbound t = [] ∧
      Delivered packets w.client.held (messages t) w'.client.held := by
  -- the induction follows the packets; the loop's fuel follows it
  induction packets generalizing w fuel with
  | nil =>
    have hnil : w.client.held = [] := List.prefix_nil.mp hpre
    have hzero : w.client.rxLen = 0 := by rw [← hs.length_held, hnil, List.length_nil]
    cases fuel with
    | zero => cases h
    | succ fuel =>
      rw [clientReadLoop_succ fuel hs, hnil] at h
      simp only [parseHeader, tooSmall_bufferTooSmall, if_true, hzero, ne_eq, not_true_eq_false,
        false_and, if_false] at h
      cases h
      exact ⟨rfl, [], rfl, rfl, [], ⟨[], rfl, rfl, rfl⟩, by simp⟩
  | cons p packets ih =>
    cases fuel with
    | zero => cases h
    | succ fuel =>
      rw [List.flatten_cons] at hpre
      by_cases hle : p.length ≤ w.client.held.length
      · -- a whole packet: its message is delivered, it is dropped, and the rest follows
        obtain ⟨header, hparse, hlen, hsize, hmsg⟩ := (hgood p List.mem_cons_self).parse
        obtain ⟨more, hheld⟩ :=
          List.prefix_of_prefix_length_le (List.prefix_append p packets.flatten) hpre hle
        have hrx := hs.length_held
        obtain ⟨env, t, hdisp, hin, hout⟩ :=
          clientDispatchPacket_delivers hs hf hquiet hheld.symm hparse hlen hmsg
        have hcons : consume header.packetLen ⟨w.client, env, t ++ w.trace⟩ =
            .ok (.ok (), ⟨w.client.consumed header.packetLen, env, t ++ w.trace⟩) := by
          rw [consume_eq (w := ⟨w.client, env, t ++ w.trace⟩) hs, if_pos (by simp only; omega)]
        have hparse' : parseHeader w.client.held = .ok header := by
          rw [← hheld]
          exact parseHeader_append_ok more hparse
        rw [clientReadLoop_of_whole fuel hs hparse' (by omega), Prog.bind_of_ok hdisp,
          Prog.bind_of_ok hcons] at h
        have hrest : (w.client.consumed header.packetLen).held = more := by
          rw [hs.held_consumed, ← hheld, hlen, List.drop_left]
        have hpre' : more <+: packets.flatten := by
          rw [← hheld] at hpre
          exact (List.prefix_append_right_inj p).mp hpre
        obtain ⟨hstate, t', htrace, hin', hdel⟩ := ih
          (w := ⟨w.client.consumed header.packetLen, env, t ++ w.trace⟩) (hs.consumed _) hf
          (fun q hq => hgood q (List.mem_cons_of_mem p hq)) (hrest.symm ▸ hpre') h
        refine ⟨hstate, t' ++ t, by rw [htrace, List.append_assoc], ?_, ?_⟩
        · rw [inbound_append, hin, hin', List.append_nil]
        · rw [← hheld, messages_append, hout]
          have hone : Parsed (p :: packets) packets p (messageOf p).toList [] :=
            ⟨[p], rfl, by simp, by cases hm : messageOf p <;> simp [hm]⟩
          refine hone.delivered ?_
          rw [List.nil_append, ← hrest]
          exact hdel
      · have hpre' : w.client.held <+: p :=
          List.prefix_of_prefix_length_le hpre (List.prefix_append p packets.flatten) (by omega)
        obtain ⟨header, hparse, hlen, hsize, -⟩ := (hgood p List.mem_cons_self).parse
        rw [clientReadLoop_of_incomplete hs hparse hlen hsize hpre' (by omega)] at h
        cases h
        refine ⟨rfl, [], rfl, rfl, p :: packets, ⟨[], rfl, rfl, rfl⟩, ?_⟩
        intro q hq
        cases hq
        omega

/-! ## What leaves the inbound side alone -/

/-- Code that changes neither the state nor the bytes held, reads nothing and delivers nothing. -/
structure Aside (w w' : World σ) : Prop where
  state : w'.client.state = w.client.state
  held : w'.client.held = w.client.held
  trace : ∃ t, w'.trace = t ++ w.trace ∧ inbound t = [] ∧ messages t = []

theorem Aside.refl (w : World σ) : Aside w w := ⟨rfl, rfl, [], rfl, rfl, rfl⟩

theorem Aside.trans {w₁ w₂ w₃ : World σ} (h₁ : Aside w₁ w₂) (h₂ : Aside w₂ w₃) :
    Aside w₁ w₃ := by
  obtain ⟨t₁, ht₁, hin₁, hmsg₁⟩ := h₁.trace
  obtain ⟨t₂, ht₂, hin₂, hmsg₂⟩ := h₂.trace
  refine ⟨h₂.state.trans h₁.state, h₂.held.trans h₁.held, t₂ ++ t₁, ?_, ?_, ?_⟩
  · rw [ht₂, ht₁, List.append_assoc]
  · rw [inbound_append, hin₁, hin₂, List.append_nil]
  · rw [messages_append, hmsg₁, hmsg₂, List.append_nil]

theorem Flushes.aside {w w' : World σ} {r : Except Status Unit} (h : Flushes w r w') :
    Aside w w' := by
  cases h with
  | idle hzero => exact .refl w
  | failed write res env => exact ⟨rfl, rfl, [_], rfl, rfl, rfl⟩
  | flushed write res env => exact ⟨rfl, rfl, [_], rfl, rfl, rfl⟩

theorem Sends.aside {w w' : World σ} {p : Packet} {r : Except Status Unit} (h : Sends p w r w') :
    Aside w w' := by
  cases h with
  | encodeFailed => exact ⟨rfl, rfl, [_], rfl, rfl, rfl⟩
  | refused => exact ⟨rfl, rfl, [_, _], rfl, rfl, rfl⟩
  | failed => exact ⟨rfl, rfl, [_, _], rfl, rfl, rfl⟩
  | sent => exact ⟨rfl, rfl, [_, _, _], rfl, rfl, rfl⟩

theorem readClock_aside (w : World σ) : Aside w w.readClock.2 := by
  unfold World.readClock
  split
  · exact .refl w
  · exact ⟨rfl, rfl, [_], rfl, rfl, rfl⟩

theorem stamped_aside (w : World σ) : Aside w w.stamped := by
  obtain ⟨-, -, t, ht, hin, hmsg⟩ := readClock_aside w
  exact ⟨rfl, rfl, t, ht, hin, hmsg⟩

theorem keepalive_aside {w w' : World σ} {r : Except Status Unit} (hs : w.client.Sound)
    (h : keepalive w = .ok (r, w')) : Aside w w' := by
  have hclock := readClock_aside w
  cases keepalive_beats hs h with
  | early hearly => exact hclock
  | failed status w' hsends => exact hclock.trans hsends.aside
  | pinged w₁ hdue hsends =>
    have haside := hclock.trans hsends.aside
    exact ⟨haside.state, haside.held, haside.trace⟩

theorem pollConnectSent_aside {w w' : World σ} {r : Except Status Unit} (hs : w.client.Sound)
    (h : pollConnectSent w = .ok (r, w')) : Aside w w' := by
  cases pollConnectSent_introduces hs h with
  | already hsent => exact .refl w
  | failed status w' hnot hsends => exact hsends.aside
  | sent w₁ hnot hsends => exact ⟨hsends.aside.state, hsends.aside.held, hsends.aside.trace⟩

theorem request_aside {w w' : World σ} {q : Request} {r : Except Status Unit}
    (hs : w.client.Sound) (hq : q.sends = true) (h : request q w = .ok (r, w')) : Aside w w' := by
  cases request_posts hs hq h with
  | unsupported => exact .refl w
  | attempted p id r w' hconnect hping hsends =>
    exact ⟨hsends.aside.state, hsends.aside.held, hsends.aside.trace⟩

/-! ## The wait and the loop together -/

/-- Where a client is that began to wait for CONNACK with nothing held, by its state, the bytes it
holds, the bytes read since and the messages delivered since. -/
def Phase (session : UInt8) (packets : List (List UInt8)) :
    State → (held bytes : List UInt8) → List (List UInt8 × List UInt8) → Prop
  | .mqttConnectSent, held, bytes, msgs => held = bytes ∧ bytes.length < 4 ∧ msgs = []
  | .mqttConnected, held, bytes, msgs =>
    ∃ behind, bytes = connackBytes session ++ behind ∧ Delivered packets behind msgs held
  | .disconnected, _, bytes, msgs => bytes.length < 4 ∧ msgs = [] -- gave up waiting
  | .connecting, _, _, _ => False
  | .mqttDisconnecting, _, _, _ => False

def Event.isFailedRead : Event → Bool
  | .read _ res => decide (HardError res.status)
  | _ => false

/-- The reads of a trace bring a part of a CONNACK and the packets behind it, and never fail. -/
structure Heard (session : UInt8) (packets : List (List UInt8)) (t : List Event) : Prop where
  reads : ∀ e ∈ t, e.isFailedRead = false
  stream : inbound t <+: connackBytes session ++ packets.flatten

instance (session : UInt8) (packets : List (List UInt8)) :
    DecidablePred (Heard session packets) := fun t =>
  decidable_of_iff ((∀ e ∈ t, e.isFailedRead = false) ∧
    inbound t <+: connackBytes session ++ packets.flatten)
    ⟨fun h => ⟨h.1, h.2⟩, fun h => ⟨h.reads, h.stream⟩⟩

theorem Heard.read_ok {session : UInt8} {packets : List (List UInt8)} {t : List Event} {len : Nat}
    {res : ReadResult} (h : Heard session packets t) (hread : .read len res ∈ t) :
    ¬ HardError res.status :=
  of_decide_eq_false (h.reads _ hread)

theorem Heard.past {session : UInt8} {packets : List (List UInt8)} {t past : List Event}
    (h : Heard session packets (t ++ past)) : Heard session packets past where
  reads e he := h.reads e (List.mem_append_right t he)
  stream := by
    have hstream := h.stream
    rw [inbound_append] at hstream
    exact (List.prefix_append _ _).trans hstream

/-- What is heard in the end was heard before. -/
theorem Heard.of_suffix {session : UInt8} {packets : List (List UInt8)} {w w' : World σ}
    {t t' past : List Event} (h : Heard session packets t') (ht : w.trace = t ++ past)
    (ht' : w'.trace = t' ++ past) (hsuffix : w.trace <:+ w'.trace) : Heard session packets t := by
  obtain ⟨s, hs⟩ := hsuffix
  rw [ht, ht', ← List.append_assoc] at hs
  rw [← List.append_cancel_right hs] at h
  exact h.past

/-- The verdict on a part of such a stream. -/
theorem connackVerdict_of_prefix {size : Nat} {session : UInt8} {bytes rest : List UInt8}
    (hsize : 4 ≤ size) (hpre : bytes <+: connackBytes session ++ rest) :
    connackVerdict size bytes = if bytes.length < 4 then .wait else .accept 4 := by
  have htwo : parseHeader [0x20, 2] =
      .ok { type := .connack, flags := 0, remainingLength := 2, headerSize := 2 } := rfl
  have hheader : ∀ tail : List UInt8, parseHeader (0x20 :: 2 :: tail) =
      .ok { type := .connack, flags := 0, remainingLength := 2, headerSize := 2 } :=
    fun tail => parseHeader_append_ok tail htwo
  have hlen : FixedHeader.packetLen
      { type := .connack, flags := 0, remainingLength := 2, headerSize := 2 } = 4 := rfl
  obtain ⟨more, hmore⟩ := hpre
  unfold connackBytes at hmore
  -- up to four bytes are those of the CONNACK, and its header needs two of them
  match bytes, hmore with
  | [], _ => rfl
  | [_], _ => rfl
  | [_, _], hmore =>
    simp only [List.cons_append, List.nil_append, List.cons.injEq] at hmore
    obtain ⟨rfl, rfl, -⟩ := hmore
    simp only [connackVerdict, hheader, hlen]
    simp [hsize]
  | [_, _, _], hmore =>
    simp only [List.cons_append, List.nil_append, List.cons.injEq] at hmore
    obtain ⟨rfl, rfl, rfl, -⟩ := hmore
    simp only [connackVerdict, hheader, hlen]
    simp [hsize]
  | _ :: _ :: _ :: _ :: tail, hmore =>
    simp only [List.cons_append, List.nil_append, List.cons.injEq] at hmore
    obtain ⟨rfl, rfl, rfl, rfl, -⟩ := hmore
    simp only [connackVerdict, hheader, hlen]
    simp [hsize]

/-- A setup that can take in a stream of packets, with a callback that does not call back. -/
structure Setup.Receives (s : Setup σ) (packets : List (List UInt8)) : Prop where
  size : 4 ≤ s.rxBufferSize
  onMessage : ∃ f, s.onMessage = some f ∧ MessageFn.Quiet f
  packets : ∀ p ∈ packets, WellFormed s.rxBufferSize p

section Stream

variable {session : UInt8} {packets : List (List UInt8)} {past : List Event}

/-- The phase of a world, `t` being the events since the wait began. -/
abbrev World.InPhase (w : World σ) (session : UInt8) (packets : List (List UInt8))
    (t : List Event) : Prop :=
  Phase session packets w.client.state w.client.held (inbound t) (messages t)

theorem Aside.inPhase {w w' : World σ} {t t' : List Event} (h : Aside w w')
    (ht : w.trace = t ++ past) (ht' : w'.trace = t' ++ past) (hph : w.InPhase session packets t) :
    w'.InPhase session packets t' := by
  obtain ⟨s, hs, hin, hmsg⟩ := h.trace
  rw [ht, ht', ← List.append_assoc] at hs
  rw [List.append_cancel_right hs]
  unfold World.InPhase
  rw [h.state, h.held, inbound_append, messages_append, hin, hmsg, List.append_nil,
    List.append_nil]
  exact hph

/-- A read and the loop behind it, from a connected client that has some packets taken off. -/
theorem clientRead_inPhase {w w' : World σ} {r : Except Status Unit} {rest : List (List UInt8)}
    {behind : List UInt8} {t t' : List Event} (hs : w.client.Sound)
    (hset : w.client.setup.Receives packets) (hstate : w.client.state = .mqttConnected)
    (ht : w.trace = t ++ past) (ht' : w'.trace = t' ++ past) (hheard : Heard session packets t')
    (hin : inbound t = connackBytes session ++ behind)
    (hparsed : Parsed packets rest behind (messages t) w.client.held)
    (h : clientRead w = .ok (r, w')) : w'.InPhase session packets t' := by
  obtain ⟨f, hf, hquiet⟩ := hset.onMessage
  have hest : w.link.Established := Or.inl hstate
  obtain ⟨res, env, hfits, hturn⟩ := clientRead_cases hs hstate h
  have hs₁ : (w.afterRead res env).client.Sound := hs.received hfits
  have hheld₁ : (w.afterRead res env).client.held = w.client.held ++ res.taken :=
    hs.held_received res
  have ht₁ : (w.afterRead res env).trace =
      .read (w.client.rxBufferSize - w.client.rxLen) res :: t ++ past := by
    rw [List.cons_append, ← ht]
    rfl
  rcases hturn with ⟨hres, -, rfl⟩ | ⟨-, hloop⟩
  · rw [ht₁] at ht'
    rw [← List.append_cancel_right ht'] at hheard
    exact absurd hres (hheard.read_ok List.mem_cons_self)
  · have hsteps := (clientReadLoop_refines hs₁ hest hloop).1.steps.trace_suffix
    have hheard₁ := hheard.of_suffix ht₁ ht' hsteps
    -- what is held is a part of the packets that are left
    obtain ⟨done, rfl, rfl, -⟩ := id hparsed
    have hpre : w.client.held ++ res.taken <+: rest.flatten := by
      have hstream := hheard₁.stream
      rw [inbound, hin, List.flatten_append, List.append_assoc, List.append_assoc] at hstream
      exact (List.prefix_append_right_inj _).mp ((List.prefix_append_right_inj _).mp hstream)
    rw [← hheld₁] at hpre
    obtain ⟨hstate', s, htrace, hin', hdel⟩ := clientReadLoop_delivers hs₁ hf hquiet
      (fun p hp => hset.packets p (List.mem_append_right done hp)) hpre hloop
    rw [ht₁, ht', ← List.append_assoc] at htrace
    rw [hheld₁] at hdel
    unfold World.InPhase
    rw [List.append_cancel_right htrace, hstate', show (w.afterRead res env).client.state =
      .mqttConnected from hstate, inbound_append, messages_append, hin', List.append_nil]
    refine ⟨done.flatten ++ w.client.held ++ res.taken, ?_, hparsed.delivered hdel⟩
    rw [inbound, hin, List.append_assoc]

/-- The rest of a poll that finds or makes the client connected. -/
theorem readAndKeepalive_inPhase {w w' : World σ} {r : Except Status Unit}
    {rest : List (List UInt8)} {behind : List UInt8} {t t' : List Event} (hs : w.client.Sound)
    (hset : w.client.setup.Receives packets) (hstate : w.client.state = .mqttConnected)
    (ht : w.trace = t ++ past) (ht' : w'.trace = t' ++ past) (hheard : Heard session packets t')
    (hin : inbound t = connackBytes session ++ behind)
    (hparsed : Parsed packets rest behind (messages t) w.client.held)
    (h : (clientRead >>= fun _ => keepalive) w = .ok (r, w')) : w'.InPhase session packets t' := by
  rcases Prog.bind_eq_ok.mp h with ⟨e, hread, -⟩ | ⟨_, w₁, hread, hkeep⟩
  · exact clientRead_inPhase hs hset hstate ht ht' hheard hin hparsed hread
  · have href := (clientRead_refines hs hstate hread).1
    obtain ⟨s, hs₁⟩ := href.steps.trace_suffix
    have ht₁ : w₁.trace = (s ++ t) ++ past := by
      rw [List.append_assoc, ← ht]
      exact hs₁.symm
    have haside := keepalive_aside href.sound hkeep
    have hheard₁ : Heard session packets (s ++ t) := by
      obtain ⟨s', hs', -⟩ := haside.trace
      exact hheard.of_suffix ht₁ ht' ⟨s', hs'.symm⟩
    exact haside.inPhase ht₁ ht'
      (clientRead_inPhase hs hset hstate ht ht₁ hheard₁ hin hparsed hread)

/-- A client that waits for CONNACK and has read the bytes of `t`. -/
structure Awaiting (packets : List (List UInt8)) (past : List Event) (w : World σ)
    (t : List Event) : Prop where
  sound : w.client.Sound
  setup : w.client.setup.Receives packets
  state : w.client.state = .mqttConnectSent
  trace : w.trace = t ++ past
  held : w.client.held = inbound t
  quiet : messages t = []

theorem Awaiting.afterRead {w : World σ} {t : List Event} {res : ReadResult} (env : σ)
    (h : Awaiting packets past w t)
    (hfits : w.client.rxLen + res.data.length ≤ w.client.rxBufferSize) :
    Awaiting packets past (w.afterRead res env)
      (.read (w.client.rxBufferSize - w.client.rxLen) res :: t) where
  sound := h.sound.received hfits
  setup := h.setup
  state := h.state
  trace := by
    rw [List.cons_append, ← h.trace]
    rfl
  held := by
    rw [inbound, ← h.held]
    exact h.sound.held_received res
  quiet := h.quiet

/-- A client that waits does not reject a part of the stream. -/
theorem Awaiting.verdict {w : World σ} {t : List Event} (h : Awaiting packets past w t)
    (hheard : Heard session packets t) :
    connackVerdict w.client.rxBufferSize w.client.held =
      if (inbound t).length < 4 then .wait else .accept 4 := by
  rw [h.held]
  exact connackVerdict_of_prefix h.setup.size hheard.stream

theorem Awaiting.inPhase {w : World σ} {t : List Event} (h : Awaiting packets past w t)
    (hlen : (inbound t).length < 4) : w.InPhase session packets t := by
  unfold World.InPhase
  rw [h.state]
  exact ⟨h.held, hlen, h.quiet⟩

theorem Waits.trace_suffix {w w' : World σ} {close : σ → Status × σ} {res : ReadResult}
    {r : Except Status Unit} (h : Waits w close res r w') : w.trace <:+ w'.trace := by
  have hclock : w.trace <:+ w.readClock.2.trace := (readClock_steps w).trace_suffix
  cases h with
  | failed => exact List.suffix_cons _ _
  | rejected status w' hres hv hrej =>
    obtain ⟨c, -, rfl⟩ := hrej
    exact List.suffix_cons _ _
  | accepted n =>
    obtain ⟨t, ht, -⟩ := (stamped_aside
      ⟨{ w.client.consumed n with state := .mqttConnected }, w.env, w.trace⟩).trace
    exact ⟨t, ht.symm⟩
  | timedOut => exact hclock.trans (List.suffix_cons _ _)
  | waiting => exact hclock

/-- A turn of the CONNACK wait that ends the poll can only have run out of time. -/
theorem Waits.error_inPhase {w w' : World σ} {close : σ → Status × σ} {res : ReadResult}
    {e : Status} {t t' : List Event} {len : Nat} (haw : Awaiting packets past w t)
    (hread : .read len res ∈ t) (ht' : w'.trace = t' ++ past) (hheard : Heard session packets t')
    (h : Waits w close res (.error e) w') : w'.InPhase session packets t' := by
  have hheard₁ := hheard.of_suffix haw.trace ht' h.trace_suffix
  cases h with
  -- the stream has no failed read and nothing to reject
  | failed hres => exact absurd hres (hheard₁.read_ok hread)
  | rejected status w' hres hv hrej =>
    rw [haw.verdict hheard₁] at hv
    split at hv <;> cases hv
  | timedOut hres hv hlate =>
    rw [haw.verdict hheard₁] at hv
    split at hv
    · next hlen =>
      have hclock := (readClock_aside w).trace
      obtain ⟨s, hs, hin, hmsgs⟩ := hclock
      have hcut : t' = .disconnect (close w.readClock.2.env).1 :: s ++ t := by
        refine (List.append_left_inj past).mp ?_
        rw [← ht', List.append_assoc, ← haw.trace, List.cons_append, ← hs]
        rfl
      rw [hcut]
      refine ⟨?_, ?_⟩
      · rw [inbound_append, show inbound (.disconnect _ :: s) = [] from hin, List.append_nil]
        exact hlen
      · rw [messages_append, show messages (.disconnect _ :: s) = [] from hmsgs, haw.quiet]
        rfl
    · cases hv

/-- Behind an accepted CONNACK, the bytes read are the CONNACK and the bytes held. -/
theorem Awaiting.accepted {w : World σ} {t : List Event} (h : Awaiting packets past w t)
    (hheard : Heard session packets t) (hlen : 4 ≤ (inbound t).length) :
    inbound t = connackBytes session ++ (w.client.consumed 4).held := by
  obtain ⟨behind, hbehind⟩ := List.prefix_of_prefix_length_le
    (List.prefix_append (connackBytes session) packets.flatten) hheard.stream hlen
  rw [h.sound.held_consumed, h.held, ← hbehind]
  rfl

/-- A turn of the CONNACK wait that does not end the poll has found the CONNACK incomplete, or takes
it off and leaves the packets behind it to the loop. -/
theorem Waits.ok_inPhase {w w₁ w' : World σ} {close : σ → Status × σ} {res : ReadResult}
    {r : Except Status Unit} {t t' : List Event} (haw : Awaiting packets past w t)
    (hs₁ : w₁.client.Sound) (hset₁ : w₁.client.setup.Receives packets)
    (ht' : w'.trace = t' ++ past) (hheard : Heard session packets t')
    (h : Waits w close res (.ok ()) w₁) (hsuffix : w₁.trace <:+ w'.trace)
    (hrest : (w₁.client.state = .mqttConnectSent ∧ pollConnectSent w₁ = .ok (r, w')) ∨
      (w₁.client.state = .mqttConnected ∧ (clientRead >>= fun _ => keepalive) w₁ = .ok (r, w')) ∨
      (w₁.client.state ≠ .mqttConnectSent ∧ w₁.client.state ≠ .mqttConnected ∧ r = .ok () ∧
        w' = w₁)) : w'.InPhase session packets t' := by
  have hheard₁ := hheard.of_suffix haw.trace ht' (h.trace_suffix.trans hsuffix)
  cases h with
  | accepted n hres hv hn =>
    rw [haw.verdict hheard₁] at hv
    split at hv
    · cases hv
    · next hlen =>
      cases hv
      obtain ⟨s, hs, hin, hmsgs⟩ := (stamped_aside
        ⟨{ w.client.consumed 4 with state := .mqttConnected }, w.env, w.trace⟩).trace
      rcases hrest with ⟨hne, -⟩ | ⟨-, hread⟩ | ⟨-, hne, -⟩
      · cases hne
      -- accepted: what is held behind the CONNACK is the beginning of the packets
      · have hbytes : inbound (s ++ t) =
            connackBytes session ++ (w.client.consumed 4).held := by
          rw [inbound_append, hin, List.append_nil]
          exact haw.accepted hheard₁ (by omega)
        have hparsed : Parsed packets packets (w.client.consumed 4).held (messages (s ++ t))
            (w.client.consumed 4).held := by
          refine ⟨[], rfl, rfl, ?_⟩
          rw [messages_append, hmsgs, haw.quiet]
          rfl
        refine readAndKeepalive_inPhase hs₁ hset₁ rfl ?_ ht' hheard hbytes hparsed hread
        rw [hs, List.append_assoc, ← haw.trace]
      · exact absurd rfl hne
  | waiting hres hv hearly =>
    rw [haw.verdict hheard₁] at hv
    split at hv
    · next hlen =>
      have haside := readClock_aside w
      rcases hrest with ⟨-, hsend⟩ | ⟨hne, -⟩ | ⟨hne, -⟩
      · exact (haside.trans (pollConnectSent_aside hs₁ hsend)).inPhase haw.trace ht'
          (haw.inPhase hlen)
      · rw [haside.state, haw.state] at hne
        cases hne
      · exact absurd (haside.state.trans haw.state) hne
    · cases hv

/-- A poll goes from phase to phase. -/
theorem poll_inPhase {w w' : World σ} {r : Except Status Unit} {t t' : List Event}
    (hs : w.client.Sound) (hset : w.client.setup.Receives packets) (ht : w.trace = t ++ past)
    (ht' : w'.trace = t' ++ past) (hheard : Heard session packets t')
    (hph : w.InPhase session packets t) (h : poll w = .ok (r, w')) :
    w'.InPhase session packets t' := by
  rcases poll_cases h with ⟨e, hflush, -⟩ | ⟨w₁, hflush, h₁⟩
  · exact (clientFlushPending_flushes hs hflush).aside.inPhase ht ht' hph
  · have hflushes := clientFlushPending_flushes hs hflush
    have href₁ := hflushes.refines hs
    have hset₁ : w₁.client.setup.Receives packets := by
      rw [href₁.setup]
      exact hset
    obtain ⟨s, hs₁, -⟩ := hflushes.aside.trace
    have ht₁ : w₁.trace = (s ++ t) ++ past := by rw [hs₁, ht, List.append_assoc]
    have hph₁ := hflushes.aside.inPhase ht ht₁ hph
    unfold World.InPhase at hph₁
    -- what the phase says of a client that waits, for the turn of the wait below
    have haw : w₁.client.state = .mqttConnectSent → Awaiting packets past w₁ (s ++ t) := by
      intro hstate
      rw [hstate] at hph₁
      exact ⟨href₁.sound, hset₁, hstate, ht₁, hph₁.1, hph₁.2.2⟩
    rcases h₁ with ⟨e, hcore, -⟩ | ⟨w₂, hcore, hrest⟩
    · cases corePoll_turn href₁.sound hcore with
      | opens _ _ hstate =>
        rw [hstate] at hph₁
        exact hph₁.elim
      | waits _ _ close res env hstate hfits hwaits =>
        exact hwaits.error_inPhase ((haw hstate).afterRead env hfits) List.mem_cons_self ht' hheard
    · have href₂ := href₁.trans (corePoll_refines href₁.sound hcore)
      have hset₂ : w₂.client.setup.Receives packets := by
        rw [href₂.setup]
        exact hset
      cases corePoll_turn href₁.sound hcore with
      | opens _ _ hstate =>
        rw [hstate] at hph₁
        exact hph₁.elim
      | closes close hstate =>
        rw [hstate] at hph₁
        exact hph₁.elim
      | idle hidle =>
        rcases hrest with ⟨hstate, -⟩ | ⟨hstate, hread⟩ | ⟨-, -, -, rfl⟩
        · simp [hstate] at hidle
        · rw [hstate] at hph₁
          -- connected from the start: the poll reads on where it stopped
          obtain ⟨behind, hin, rest, hparsed, -⟩ := hph₁
          exact readAndKeepalive_inPhase href₁.sound hset₁ hstate ht₁ ht' hheard hin hparsed hread
        · rw [ht₁] at ht'
          rw [← List.append_cancel_right ht']
          exact hph₁
      | waits _ _ close res env hstate hfits hwaits =>
        -- the wait has ended or goes on, and the poll with it
        refine hwaits.ok_inPhase ((haw hstate).afterRead env hfits) href₂.sound hset₂ ht' hheard ?_
          hrest
        rcases hrest with ⟨hcs, hsend⟩ | ⟨hcon, hread⟩ | ⟨-, -, -, rfl⟩
        · exact (pollConnectSent_refines href₂.sound hcs hsend).steps.trace_suffix
        · exact (readAndKeepalive_refines href₂.sound hcon hread).1.steps.trace_suffix
        · exact List.suffix_refl _

def Call.sendsOrPolls : Call σ → Bool
  | .init _ => false
  | .request q => q.sends
  | .poll => true

/-- So does every call the stream may be interleaved with. -/
theorem call_inPhase {w w' : World σ} {c : Call σ} {r : Except Status Unit} (hs : w.client.Sound)
    (hc : c.sendsOrPolls = true) (h : call c w = .ok (r, w')) :
    Refines w w' ∧ ∀ {session : UInt8} {packets : List (List UInt8)} {past t t' : List Event},
      w.client.setup.Receives packets → w.trace = t ++ past → w'.trace = t' ++ past →
      Heard session packets t' → w.InPhase session packets t → w'.InPhase session packets t' := by
  cases c with
  | init config => cases hc
  | request q =>
    exact ⟨(request_refines hs h).1,
      fun _ ht ht' _ hph => (request_aside hs hc h).inPhase ht ht' hph⟩
  | poll =>
    exact ⟨poll_refines hs h, fun hset ht ht' hheard hph =>
      poll_inPhase hs hset ht ht' hheard hph h⟩

/-- What a phase says about the messages and the bytes held, in terms of the stream. -/
theorem World.InPhase.eq {w : World σ} {t : List Event} (h : w.InPhase session packets t) :
    ((inbound t).length < 4 → messages t = [] ∧ w.client.state ≠ .mqttConnected) ∧
    (4 ≤ (inbound t).length → w.client.state = .mqttConnected ∧
      messages t = (wholePackets packets ((inbound t).length - 4)).filterMap messageOf ∧
      w.client.held = (inbound t).drop
        (4 + (wholePackets packets ((inbound t).length - 4)).flatten.length)) := by
  unfold World.InPhase at h
  cases hstate : w.client.state with
  | connecting =>
    rw [hstate] at h
    exact h.elim
  | mqttDisconnecting =>
    rw [hstate] at h
    exact h.elim
  | disconnected =>
    rw [hstate] at h
    exact ⟨fun _ => ⟨h.2, by simp⟩, fun hlen => absurd h.1 (by omega)⟩
  | mqttConnectSent =>
    rw [hstate] at h
    exact ⟨fun _ => ⟨h.2.2, by simp⟩, fun hlen => absurd h.2.1 (by omega)⟩
  | mqttConnected =>
    rw [hstate] at h
    -- the bytes behind the CONNACK are the stream that `Delivered` is about
    obtain ⟨behind, hin, hdel⟩ := h
    obtain ⟨hmsgs, hheld⟩ := hdel.eq
    have hlen : (inbound t).length - 4 = behind.length := by
      rw [hin, List.length_append]
      exact Nat.add_sub_cancel_left 4 behind.length
    refine ⟨fun hshort => ?_, fun _ => ⟨rfl, ?_, ?_⟩⟩
    · rw [hin, List.length_append] at hshort
      exact absurd hshort (by show ¬ 4 + behind.length < 4; omega)
    · rw [hlen]
      exact hmsgs
    · rw [hlen, hin, hheld, ← List.drop_drop]
      rfl

end Stream

/-- **Delivery does not depend on chunking.** A client that has just begun to wait for CONNACK is
polled, and publishes and subscribes in between. Whatever the transport's reads have brought since,
as long as it is a part of an accepting CONNACK and the packets behind it: nothing is delivered
before the CONNACK is complete; from then on the client is connected, the messages delivered are
those of the PUBLISH packets that are complete, in order and once each, and the bytes held are those
behind the last complete packet. Every run of this kind returns. -/
theorem inbound_delivered {w₀ : World σ} (session : UInt8) {packets : List (List UInt8)}
    {f : MessageFn σ} {calls : List (Call σ)} (h₀ : Reachable w₀)
    (hstate : w₀.client.state = .mqttConnectSent) (hempty : w₀.client.rxLen = 0)
    (hhonest : w₀.client.transport.Honest) (hsize : 4 ≤ w₀.client.rxBufferSize)
    (hf : w₀.client.onMessage = some f) (hquiet : f.Quiet)
    (hpackets : ∀ p ∈ packets, WellFormed w₀.client.rxBufferSize p)
    (hcalls : ∀ c ∈ calls, c.Contract ∧ c.sendsOrPolls = true) :
    (run calls).Returns w₀ fun _ w => ∃ new, w.trace = new ++ w₀.trace ∧
      (Heard session packets new →
        ((inbound new).length < 4 → messages new = [] ∧ w.client.state ≠ .mqttConnected) ∧
        (4 ≤ (inbound new).length → w.client.state = .mqttConnected ∧
          messages new = (wholePackets packets ((inbound new).length - 4)).filterMap messageOf ∧
          w.client.held = (inbound new).drop
            (4 + (wholePackets packets ((inbound new).length - 4)).flatten.length))) := by
  have hset : w₀.client.setup.Receives packets := ⟨hsize, ⟨f, hf, hquiet⟩, hpackets⟩
  have htame : f.Tame := by
    intro env topic payload q hq
    rw [hquiet env topic payload] at hq
    cases hq
  have hsafe : w₀.Safe := by
    refine ⟨h₀.sound, hhonest, fun g hg => ?_⟩
    cases hf.symm.trans hg
    exact htame
  have hstart : w₀.InPhase session packets [] := by
    unfold World.InPhase
    rw [hstate, Client.held, hempty, List.take_zero]
    exact ⟨rfl, by decide, rfl⟩
  -- the invariant of the run: as long as what was heard is a part of the stream, a phase
  refine (Prog.forAll_returns (P := fun w => w.Safe ∧ w.client.setup = w₀.client.setup ∧
    ∃ new, w.trace = new ++ w₀.trace ∧ (Heard session packets new →
      w.InPhase session packets new)) ⟨hsafe, rfl, [], rfl, fun _ => hstart⟩ ?_).mono ?_
  · rintro c hc w ⟨hw, hsetup, new, hnew, hph⟩
    obtain ⟨hcontract, hkind⟩ := hcalls c hc
    obtain ⟨r, w', hrun, hw'⟩ := call_returns hw hcontract
    obtain ⟨href, hstep⟩ := call_inPhase hw.sound hkind hrun
    obtain ⟨s, hs⟩ := href.steps.trace_suffix
    have hnew' : w'.trace = (s ++ new) ++ w₀.trace := by
      rw [List.append_assoc, ← hnew]
      exact hs.symm
    refine ⟨r, w', hrun, hw', href.setup.trans hsetup, s ++ new, hnew', fun hheard => ?_⟩
    exact hstep (by rw [hsetup]; exact hset) hnew hnew' hheard (hph hheard.past)
  · rintro r w ⟨-, -, new, hnew, hph⟩
    exact ⟨new, hnew, fun hheard => (hph hheard).eq⟩

def Script.packets : List (List UInt8) :=
  [[0x30, 4, 0, 1, 0x61, 1], [0xD0, 0], [0x30, 5, 0, 1, 0x62, 2, 3]]

def Script.polls : List (Call Script) := [.poll, .poll, publishA [7], .poll, .poll, .poll]

/-- A CONNACK and the first two packets, with the beginning of the third, cut in the middle of
everything. -/
theorem inbound_delivered_split :
    ∃ (w₀ w : World Script) (new : List Event), w.trace = new ++ w₀.trace ∧
      w.client.state = .mqttConnected ∧ messages new = [([0x61], [1])] ∧
      w.client.held = [0x30, 5, 0] := by
  obtain ⟨w₀, hr, hsetup, hstate, hempty, r', w', hrun', hheard, hin⟩ := exists_reachable
    (P := fun w₀ => w₀.client.state = .mqttConnectSent ∧ w₀.client.rxLen = 0 ∧
      (run Script.polls).Returns w₀ fun _ w =>
        Heard 0 Script.packets (w.trace.take (w.trace.length - w₀.trace.length)) ∧
        inbound (w.trace.take (w.trace.length - w₀.trace.length)) =
          [0x20, 2, 0, 0, 0x30, 4, 0, 1, 0x61, 1, 0xD0, 0, 0x30, 5, 0])
    (Script.config 64 16 60000 (some Script.listen))
    ⟨[], [⟨statusOk, [0x20, 2]⟩, ⟨ioWouldBlock, []⟩, ⟨statusOk, [0, 0, 0x30, 4, 0]⟩,
      ⟨statusOk, [1, 0x61, 1, 0xD0]⟩, ⟨statusOk, []⟩, ⟨statusOk, [0, 0x30, 5, 0]⟩], [], []⟩
    [.request .connect, .poll] (by decide) (by decide +kernel)
  have hsize : w₀.client.rxBufferSize = 16 := congrArg Setup.rxBufferSize hsetup
  have htransport : w₀.client.transport = Script.transport := congrArg Setup.transport hsetup
  have hpackets : ∀ p ∈ Script.packets, WellFormed w₀.client.rxBufferSize p := by
    rw [hsize]
    intro p hp
    simp only [Script.packets, List.mem_cons, List.not_mem_nil, or_false] at hp
    rcases hp with rfl | rfl | rfl
    · exact ⟨_, rfl, rfl, by decide, fun _ => ⟨_, rfl⟩⟩
    · exact ⟨_, rfl, rfl, by decide, fun h => nomatch h⟩
    · exact ⟨_, rfl, rfl, by decide, fun _ => ⟨_, rfl⟩⟩
  have hcalls : ∀ c ∈ Script.polls, c.Contract ∧ c.sendsOrPolls = true := by
    simp [Script.polls, Call.Contract, Request.Fits, Script.publishA, Call.sendsOrPolls,
      Request.sends]
  obtain ⟨r, w, hrun, new, hnew, hdelivered⟩ := inbound_delivered 0
    (f := Script.listen) hr hstate hempty (by rw [htransport]; exact Script.honest)
    (by rw [hsize]; decide) (congrArg Setup.onMessage hsetup) (fun _ _ _ => rfl) hpackets hcalls
  -- `new` is what the run has put on top of the trace
  have hcut : w.trace.take (w.trace.length - w₀.trace.length) = new := by
    rw [hnew, List.length_append, Nat.add_sub_cancel, List.take_left]
  rw [hrun] at hrun'
  cases hrun'
  rw [hcut] at hheard hin
  obtain ⟨hconnected, hmsgs, hheld⟩ := (hdelivered hheard).2 (by rw [hin]; decide)
  rw [hin] at hmsgs hheld
  exact ⟨w₀, _, new, hnew, hconnected, hmsgs, hheld⟩

end Aemlib
