import Aemlib.Behaviour.Reading

/-!
# A packet that is rejected

When the packet loop meets a PUBLISH it does not accept, it reports an error and leaves the packet
at the front of `rx_buffer`. The next poll finds it there again. So the first such packet of a
stream is the last thing the client makes of it: it goes on to be connected, and never delivers a
message or sends a PINGREQ again. The CONNACK wait, which shares the buffer, takes a packet it
rejects off the buffer or drops the transport.
-/

namespace Aemlib

open Machine Proto

variable {σ : Type}

/-! ## Streams -/

/-- `feeds env bytes`: in the environment `env`, the bytes the transport has yet to bring are
`bytes`. A read takes from their front; a write and a look at the clock leave them alone. -/
structure Setup.Streams (s : Setup σ) (feeds : σ → List UInt8 → Prop) : Prop where
  read : ∀ f, s.transport.read = some f → ∀ env bytes len, feeds env bytes →
    ∃ left, bytes = (f env len).1.taken ++ left ∧ feeds (f env len).2 left
  write : ∀ f, s.transport.write = some f → ∀ env bytes data, feeds env bytes →
    feeds (f env data).2 bytes
  now : ∀ f, s.nowMs = some f → ∀ env bytes, feeds env bytes → feeds (f env).2 bytes

section Streams

variable {feeds : σ → List UInt8 → Prop} {left : List UInt8}

theorem Flushes.keepsFeed {w w' : World σ} {r : Except Status Unit} (h : Flushes w r w')
    (hstreams : w.client.setup.Streams feeds) (hfeeds : feeds w.env left) :
    feeds w'.env left := by
  cases h with
  | idle hzero => exact hfeeds
  | failed write res env hpos hf hcall =>
    have hkept := hstreams.write write hf w.env left w.client.staged hfeeds
    rw [hcall] at hkept
    exact hkept
  | flushed write res env hpos hf hcall =>
    have hkept := hstreams.write write hf w.env left w.client.staged hfeeds
    rw [hcall] at hkept
    exact hkept

theorem Sends.keepsFeed {w w' : World σ} {p : Packet} {r : Except Status Unit} (h : Sends p w r w')
    (hstreams : w.client.setup.Streams feeds) (hfeeds : feeds w.env left) :
    feeds w'.env left := by
  cases h with
  | encodeFailed => exact hfeeds
  | refused => exact hfeeds
  | failed buf write res env hlen hzero hf hcall =>
    have hkept := hstreams.write write hf w.env left p.bytes hfeeds
    rw [hcall] at hkept
    exact hkept
  | sent buf write res env hlen hfits hzero hf hcall =>
    have hkept := hstreams.write write hf w.env left p.bytes hfeeds
    rw [hcall] at hkept
    exact hkept

theorem readClock_keepsFeed {w : World σ} (hstreams : w.client.setup.Streams feeds)
    (hfeeds : feeds w.env left) : feeds w.readClock.2.env left := by
  unfold World.readClock
  split
  · exact hfeeds
  · next f hf => exact hstreams.now f hf w.env left hfeeds

theorem keepalive_keepsFeed {w w' : World σ} {r : Except Status Unit} (hs : w.client.Sound)
    (hstreams : w.client.setup.Streams feeds) (hfeeds : feeds w.env left)
    (h : keepalive w = .ok (r, w')) : feeds w'.env left := by
  have hclock := readClock_keepsFeed hstreams hfeeds
  have hstreams' : w.readClock.2.client.setup.Streams feeds := by
    rw [readClock_client]
    exact hstreams
  cases keepalive_beats hs h with
  | early hearly => exact hclock
  | failed status w' hsends => exact hsends.keepsFeed hstreams' hclock
  | pinged w₁ hdue hsends => exact hsends.keepsFeed hstreams' hclock

end Streams

/-! ## The rejected packet stays -/

/-- A whole PUBLISH that `rx_buffer` can hold and that its decoder rejects with `status`: its QoS is
above 0, or its topic does not fit its body. -/
def Unacceptable (size : Nat) (packet : List UInt8) (status : Status) : Prop :=
  ∃ header, decodeFixedHeader packet packet.length = .ok (.ok header) ∧
    header.packetLen = packet.length ∧ packet.length ≤ size ∧ header.type = .publish ∧
    decodePublish packet packet.length header = .ok (.error status)

theorem Unacceptable.parse {size : Nat} {packet : List UInt8} {status : Status}
    (h : Unacceptable size packet status) :
    ∃ header, parseHeader packet = .ok header ∧ header.packetLen = packet.length ∧
      packetMessage header packet = .error status := by
  obtain ⟨header, hdecode, hlen, -, htype, hpub⟩ := h
  have hparse : parseHeader packet = .ok header := by
    rw [decodeFixedHeader_eq (Nat.le_refl _), List.take_length] at hdecode
    exact Except.ok.inj hdecode
  obtain ⟨-, hheader, -, hrem⟩ := parseHeader_bounds hparse
  refine ⟨header, hparse, hlen, ?_⟩
  rw [decodePublish_eq (Nat.le_refl packet.length) hheader hrem, List.take_length] at hpub
  unfold packetMessage
  rw [htype]
  simp only [Except.ok.inj hpub]

def Event.isFailure : Event → Bool
  | .read _ res => decide (HardError res.status)
  | .write _ res => decide (HardError res.status)
  | _ => false

def Event.isEncode : Event → Bool
  | .encode _ _ _ => true
  | _ => false

/-- A flush reads nothing, tells nothing and encodes nothing, and it fails with the transport. -/
theorem Flushes.events {w w' : World σ} {r : Except Status Unit} (h : Flushes w r w') :
    ∃ t, w'.trace = t ++ w.trace ∧ inbound t = [] ∧ messages t = [] ∧
      (∀ e ∈ t, e.isEncode = false) ∧ (r = .ok () ∨ ∃ e ∈ t, e.isFailure = true) := by
  cases h with
  | idle hzero => exact ⟨[], rfl, rfl, rfl, by simp, Or.inl rfl⟩
  | failed write res env hpos hf hcall hres =>
    refine ⟨[_], rfl, rfl, rfl, by simp [Event.isEncode], Or.inr ⟨_, List.mem_singleton_self _, ?_⟩⟩
    exact decide_eq_true hres
  | flushed write res env hpos hf hcall hres =>
    exact ⟨[_], rfl, rfl, rfl, by simp [Event.isEncode], Or.inl rfl⟩

section Wedge

variable {feeds : σ → List UInt8 → Prop} {packet rest : List UInt8} {status : Status}

/-- A connected client that has a rejected packet before it: what it holds and what is yet to come
are the packet and the rest of the stream. -/
structure Wedging (feeds : σ → List UInt8 → Prop) (packet rest : List UInt8) (status : Status)
    (w : World σ) : Prop where
  sound : w.client.Sound
  honest : w.client.transport.Honest
  streams : w.client.setup.Streams feeds
  state : w.client.state = .mqttConnected
  bad : Unacceptable w.client.rxBufferSize packet status
  stream : ∃ left, w.client.held ++ left = packet ++ rest ∧ feeds w.env left

/-- Code that leaves the inbound side alone leaves the client where it is. -/
theorem Wedging.aside {w w' : World σ} (h : Wedging feeds packet rest status w)
    (href : Refines w w') (haside : Aside w w')
    (hkeeps : ∀ left, feeds w.env left → feeds w'.env left) :
    Wedging feeds packet rest status w' := by
  obtain ⟨left, hheld, hfeeds⟩ := h.stream
  have htransport : w'.client.transport = w.client.transport := congrArg Setup.transport href.setup
  have hsize : w'.client.rxBufferSize = w.client.rxBufferSize :=
    congrArg Setup.rxBufferSize href.setup
  refine ⟨href.sound, ?_, ?_, haside.state.trans h.state, ?_, left, ?_, hkeeps left hfeeds⟩
  · rw [htransport]
    exact h.honest
  · rw [href.setup]
    exact h.streams
  · rw [hsize]
    exact h.bad
  · rw [haside.held]
    exact hheld

/-- The loop takes nothing off: the packet at the front is incomplete, or it is rejected. -/
theorem Wedging.clientReadLoop {w : World σ} (h : Wedging feeds packet rest status w) (fuel : Nat) :
    ∃ r, clientReadLoop (fuel + 1) w = .ok (r, w) ∧
      (packet.length ≤ w.client.rxLen → r = .error status) := by
  obtain ⟨header, hparse, hlen, hmsg⟩ := h.bad.parse
  obtain ⟨-, -, -, hsize, -, -⟩ := h.bad
  obtain ⟨left, hheld, -⟩ := h.stream
  have hrx := h.sound.length_held
  -- what is held is a part of the stream from its front: the packet and more, or less than it
  by_cases hle : packet.length ≤ w.client.held.length
  · obtain ⟨more, hmore⟩ := List.prefix_of_prefix_length_le
      (List.prefix_append packet rest) ⟨left, hheld⟩ hle
    have hparse' : parseHeader w.client.held = .ok header := by
      rw [← hmore]
      exact parseHeader_append_ok more hparse
    have hdispatch : clientDispatchPacket header header.packetLen w = .ok (.error status, w) := by
      rw [clientDispatchPacket_eq h.sound hparse' (by omega), ← hmore, hlen, List.take_left, hmsg]
    refine ⟨.error status, ?_, fun _ => rfl⟩
    rw [clientReadLoop_of_whole fuel h.sound hparse' (by omega), Prog.bind_of_error hdispatch]
  · have hpre : w.client.held <+: packet :=
      List.prefix_of_prefix_length_le ⟨left, hheld⟩ (List.prefix_append packet rest) (by omega)
    refine ⟨.ok (), ?_, fun hcomplete => absurd hcomplete (by omega)⟩
    exact clientReadLoop_of_incomplete h.sound hparse hlen hsize hpre (by omega)

/-- Reading adds to the bytes held and does nothing else. -/
theorem Wedging.clientRead {w : World σ} (h : Wedging feeds packet rest status w) :
    ∃ r res env, clientRead w = .ok (r, w.afterRead res env) ∧
      Wedging feeds packet rest status (w.afterRead res env) ∧
      (w.afterRead res env).client.held = w.client.held ++ res.taken ∧
      (packet.length ≤ (w.afterRead res env).client.rxLen →
        (HardError res.status ∧ r = .error res.status) ∨ r = .error status) := by
  obtain ⟨read, close, hf, -⟩ := h.sound.exists_read (by rw [h.state]; decide)
    (by rw [h.state]; decide)
  rcases hcall : read w.env (w.client.rxBufferSize - w.client.rxLen) with ⟨res, env⟩
  have hfits : w.client.rxLen + res.data.length ≤ w.client.rxBufferSize := by
    have hle := h.honest.read read hf w.env (w.client.rxBufferSize - w.client.rxLen)
    have hheld := h.sound.rxHeld
    rw [hcall] at hle
    simp only at hle
    omega
  have hrun := clientRead_eq h.sound hf hcall
  rw [if_pos hfits] at hrun
  -- the bytes read come from the front of the stream
  obtain ⟨left, hheld, hfeeds⟩ := h.stream
  obtain ⟨left', hleft, hfeeds'⟩ :=
    h.streams.read read hf w.env left (w.client.rxBufferSize - w.client.rxLen) hfeeds
  rw [hcall] at hleft hfeeds'
  have hreceived := h.sound.held_received res
  have hw₁ : Wedging feeds packet rest status (w.afterRead res env) := by
    refine ⟨h.sound.received hfits, h.honest, h.streams, h.state, h.bad, left', ?_, hfeeds'⟩
    show (w.client.received res).held ++ left' = packet ++ rest
    rw [hreceived, List.append_assoc, ← hleft, hheld]
  by_cases hres : HardError res.status
  · rw [if_pos hres] at hrun
    exact ⟨_, res, env, hrun, hw₁, hreceived, fun _ => Or.inl ⟨hres, rfl⟩⟩
  · rw [if_neg hres] at hrun
    obtain ⟨r, hloop, hr⟩ := hw₁.clientReadLoop (w.afterRead res env).client.rxLen
    exact ⟨r, res, env, hrun.trans hloop, hw₁, hreceived, fun hcomplete => Or.inr (hr hcomplete)⟩

/-- What a poll does between `w` and `w'`: it adds to the bytes held, tells nothing, and if the
packet is complete by its end, it reports an error, which is the packet's unless the transport
failed, and begins no send. -/
def InVain (packet : List UInt8) (status : Status) (w : World σ) (r : Except Status Unit)
    (w' : World σ) : Prop :=
  ∃ t, w'.trace = t ++ w.trace ∧ w'.client.held = w.client.held ++ inbound t ∧ messages t = [] ∧
    (packet.length ≤ w'.client.rxLen →
      (∃ e, r = .error e) ∧ ((∀ e ∈ t, e.isFailure = false) → r = .error status) ∧
      ∀ e ∈ t, e.isEncode = false)

/-- The part of a poll behind the flush. -/
theorem Wedging.readAndKeepalive {w : World σ} (h : Wedging feeds packet rest status w) :
    (Aemlib.clientRead >>= fun _ => keepalive).Returns w fun r w' =>
      Wedging feeds packet rest status w' ∧ InVain packet status w r w' := by
  obtain ⟨r, res, env, hread, hw₁, hheld, herr⟩ := h.clientRead
  have hin : inbound [.read (w.client.rxBufferSize - w.client.rxLen) res] = res.taken := rfl
  cases r with
  | error e =>
    refine ⟨.error e, _, Prog.bind_of_error hread, hw₁, [_], rfl, hheld, rfl, fun hcomplete => ?_⟩
    refine ⟨⟨e, rfl⟩, fun hok => ?_, by simp [Event.isEncode]⟩
    rcases herr hcomplete with ⟨hres, -⟩ | hstatus
    · exact absurd hres (of_decide_eq_false (hok _ (List.mem_singleton_self _)))
    · exact hstatus
  | ok u =>
    -- the keepalive is reached while the packet is incomplete
    obtain ⟨r', w', hkeep⟩ := keepalive_returns hw₁.sound
    have haside := keepalive_aside hw₁.sound hkeep
    have href := (keepalive_refines hw₁.sound (Or.inl hw₁.state) hkeep).1
    have hw' := hw₁.aside href haside fun left hleft =>
      keepalive_keepsFeed hw₁.sound hw₁.streams hleft hkeep
    obtain ⟨t, ht, htin, htmsg⟩ := haside.trace
    refine ⟨r', w', by rw [Prog.bind_of_ok hread, hkeep], hw',
      t ++ [.read (w.client.rxBufferSize - w.client.rxLen) res], ?_, ?_, ?_, fun hcomplete => ?_⟩
    · rw [ht, List.append_assoc]
      rfl
    · rw [haside.held, hheld, inbound_append, htin, hin, List.append_nil]
    · rw [messages_append, htmsg]
      rfl
    · have hrx : w'.client.rxLen = (w.afterRead res env).client.rxLen := by
        rw [← hw'.sound.length_held, haside.held, hw₁.sound.length_held]
      rw [hrx] at hcomplete
      rcases herr hcomplete with ⟨-, hr⟩ | hr
      · cases hr
      · cases hr

/-- **A poll of a client with a rejected packet before it.** -/
theorem Wedging.poll {w : World σ} (h : Wedging feeds packet rest status w) :
    Aemlib.poll.Returns w fun r w' =>
      Wedging feeds packet rest status w' ∧ InVain packet status w r w' := by
  obtain ⟨r, w₁, hflush, hflushes⟩ := clientFlushPending_returns h.sound h.honest.writesWithin
  have hw₁ := h.aside (hflushes.refines h.sound) hflushes.aside fun left hleft =>
    hflushes.keepsFeed h.streams hleft
  have hheld₁ := hflushes.aside.held
  obtain ⟨t₁, ht₁, hin₁, hmsg₁, henc₁, hfail⟩ := hflushes.events
  cases r with
  | error e =>
    -- the flush fails: nothing is read, and the failure is the transport's own
    refine ⟨.error e, w₁, Prog.bind_of_error hflush, hw₁, t₁, ht₁, ?_, hmsg₁, fun _ => ?_⟩
    · rw [hheld₁, hin₁, List.append_nil]
    · refine ⟨⟨e, rfl⟩, fun hok => ?_, henc₁⟩
      rcases hfail with hr | ⟨ev, hev, hbad⟩
      · cases hr
      · rw [hok ev hev] at hbad
        cases hbad
  | ok u =>
    -- the packet in front is still there after the flush, the read meets it again
    obtain ⟨r', w', hrest, hw', t, ht, hheld, hmsg, hvain⟩ := hw₁.readAndKeepalive
    have hcore := corePoll_of_idle (Or.inr hw₁.state)
    refine ⟨r', w', (poll_of_connected hflush hcore hw₁.state).trans hrest, hw', t ++ t₁, ?_, ?_,
      ?_, fun hcomplete => ?_⟩
    · rw [ht, ht₁, List.append_assoc]
    · rw [hheld, hheld₁, inbound_append, hin₁, List.nil_append]
    · rw [messages_append, hmsg₁, hmsg]
      rfl
    · obtain ⟨herr, hstatus, henc⟩ := hvain hcomplete
      refine ⟨herr, fun hok => hstatus fun e he => hok e (List.mem_append_left t₁ he), ?_⟩
      intro e he
      rcases List.mem_append.mp he with he | he
      · exact henc e he
      · exact henc₁ e he

end Wedge

/-- **A rejected packet wedges the connection.** A connected client, on a transport that brings a
rejected packet and whatever behind it, is polled any number of times, and once more. It is still
connected, every byte that has come is still held, and no message was told. If the rejected packet
is complete by then it is still at the front of `rx_buffer`, and this last poll has reported an
error, the packet's unless the transport failed, and has not begun to send a PINGREQ or anything
else. -/
theorem rejected_wedges {feeds : σ → List UInt8 → Prop} {w : World σ}
    {packet rest left : List UInt8} {status : Status} (hs : w.client.Sound)
    (hstate : w.client.state = .mqttConnected) (hhonest : w.client.transport.Honest)
    (hstreams : w.client.setup.Streams feeds)
    (hpacket : Unacceptable w.client.rxBufferSize packet status)
    (hstream : w.client.held ++ left = packet ++ rest) (hleft : feeds w.env left) (n : Nat) :
    (run (List.replicate n .poll)).Returns w fun _ w₁ => poll.Returns w₁ fun r w₂ =>
      ∃ t new, w₁.trace = new ++ w.trace ∧ w₂.trace = t ++ w₁.trace ∧
        w₂.client.state = .mqttConnected ∧
        w₂.client.held = w.client.held ++ inbound (t ++ new) ∧ messages (t ++ new) = [] ∧
        (packet.length ≤ w₂.client.rxLen → packet <+: w₂.client.held ∧
          (∃ e, r = .error e) ∧ ((∀ e ∈ t, e.isFailure = false) → r = .error status) ∧
          ∀ e ∈ t, e.isEncode = false) := by
  have hw : Wedging feeds packet rest status w :=
    ⟨hs, hhonest, hstreams, hstate, hpacket, left, hstream, hleft⟩
  -- nothing is taken off and nothing is told, poll after poll
  refine (Prog.forAll_returns (P := fun w₁ => Wedging feeds packet rest status w₁ ∧
    ∃ new, w₁.trace = new ++ w.trace ∧ w₁.client.held = w.client.held ++ inbound new ∧
      messages new = []) ⟨hw, [], rfl, (List.append_nil _).symm, rfl⟩ ?_).mono ?_
  · rintro c hc w₁ ⟨hw₁, new, hnew, hheld, hquiet⟩
    cases List.eq_of_mem_replicate hc
    obtain ⟨r, w₂, hrun, hw₂, t, ht, hheld₂, hmsg, -⟩ := hw₁.poll
    refine ⟨r, w₂, hrun, hw₂, t ++ new, ?_, ?_, ?_⟩
    · rw [ht, hnew, List.append_assoc]
    · rw [hheld₂, hheld, inbound_append, List.append_assoc]
    · rw [messages_append, hquiet, hmsg]
      rfl
  · rintro - w₁ ⟨hw₁, new, hnew, hheld, hquiet⟩
    obtain ⟨r, w₂, hrun, hw₂, t, ht, hheld₂, hmsg, hvain⟩ := hw₁.poll
    refine ⟨r, w₂, hrun, t, new, hnew, ht, hw₂.state, ?_, ?_, ?_⟩
    · rw [hheld₂, hheld, inbound_append, List.append_assoc]
    · rw [messages_append, hquiet, hmsg]
      rfl
    · intro hcomplete
      refine ⟨?_, hvain hcomplete⟩
      obtain ⟨left', hstream', -⟩ := hw₂.stream
      refine List.prefix_of_prefix_length_le (List.prefix_append packet rest) ⟨left', hstream'⟩ ?_
      rw [hw₂.sound.length_held]
      exact hcomplete

/-! ## A stream that comes a byte at a time -/

/-- A transport over the bytes yet to come, which brings one of them a read. -/
def Trickle.transport : Transport (List UInt8) where
  connect := some fun bytes => (statusOk, bytes)
  disconnect := some fun bytes => (statusOk, bytes)
  read := some fun bytes len => (⟨statusOk, bytes.take (min len 1)⟩, bytes.drop (min len 1))
  write := some fun bytes data => (⟨statusOk, data.length⟩, bytes)

/-- A client on it, whose clock stands still until the last byte has come and then shows that the
keepalive is due. -/
def Trickle.config : Config (List UInt8) where
  txBuffer := some (List.replicate 32 0)
  txBufferSize := 32
  rxBuffer := some (List.replicate 16 0)
  rxBufferSize := 16
  transport := Trickle.transport
  nowMs := some fun bytes => (if bytes = [] then 60000 else 0, bytes)
  keepaliveIntervalMs := 60000
  onMessage := some fun bytes _ _ => ([], bytes)
  txOwned b hb := by
    cases hb
    rfl
  rxOwned b hb := by
    cases hb
    rfl
  txSizeLt := by decide
  rxSizeLt := by decide

theorem Trickle.honest : Trickle.transport.Honest where
  read f hf env len := by
    cases hf
    show (env.take (min len 1)).length ≤ len
    rw [List.length_take]
    omega
  write f hf env data := by
    cases hf
    exact Nat.le_refl _

/-- The environment is the stream. -/
theorem Trickle.streams : Trickle.config.client.setup.Streams Eq where
  read f hf env bytes len h := by
    cases hf
    cases h
    exact ⟨env.drop (min len 1), (List.take_append_drop _ _).symm, rfl⟩
  write f hf env bytes data h := by
    cases hf
    exact h
  now f hf env bytes h := by
    cases hf
    exact h

def Trickle.bad : List UInt8 := [0x32, 6, 0, 1, 0x61, 0, 1, 9]

def Trickle.good : List UInt8 := [0x30, 4, 0, 1, 0x62, 7]

theorem Trickle.unacceptable : Unacceptable 16 Trickle.bad (mkStatus .protocol .unsupported) :=
  ⟨_, rfl, rfl, by decide, rfl, rfl⟩

/-- The two PUBLISH packets behind a CONNACK, and a hundred polls. -/
theorem rejected_wedges_trickle :
    ∃ w w₁ w₂ : World (List UInt8), ∃ r t new, Reachable w ∧
      w.client.held ++ w.env = Trickle.bad ++ Trickle.good ∧
      run (List.replicate 100 .poll) w = .ok (.ok (), w₁) ∧ poll w₁ = .ok (r, w₂) ∧
      w₂.trace = t ++ new ++ w.trace ∧ w₂.client.state = .mqttConnected ∧
      messages (t ++ new) = [] := by
  obtain ⟨w, hr, hsetup, hstate, hstream⟩ := exists_reachable
    (P := fun w => w.client.state = .mqttConnected ∧
      w.client.held ++ w.env = Trickle.bad ++ Trickle.good)
    Trickle.config ([0x20, 2, 0, 0] ++ Trickle.bad ++ Trickle.good)
    (.request .connect :: List.replicate 5 .poll) (by decide) (by decide +kernel)
  have htransport : w.client.transport = Trickle.transport := congrArg Setup.transport hsetup
  have hsize : w.client.rxBufferSize = 16 := congrArg Setup.rxBufferSize hsetup
  obtain ⟨r₁, w₁, hrun, r, w₂, hpoll, t, new, hnew, ht, hstate₂, -, hquiet, -⟩ :=
    rejected_wedges hr.sound hstate (by rw [htransport]; exact Trickle.honest)
      (by rw [hsetup]; exact Trickle.streams) (by rw [hsize]; exact Trickle.unacceptable) hstream
      rfl 100
  have hr₁ : r₁ = .ok () := Prog.forAll_ok hrun
  subst hr₁
  refine ⟨w, w₁, w₂, r, t, new, hr, hstream, hrun, hpoll, ?_, hstate₂, hquiet⟩
  rw [ht, hnew, List.append_assoc]

/-- All bytes have come and all are still held, no message was told, and the PINGREQ that is due was
not sent. -/
def Trickle.Stuck (w : World (List UInt8)) : Prop :=
  w.client.state = .mqttConnected ∧ w.client.held = Trickle.bad ++ Trickle.good ∧ w.env = [] ∧
    60000 - w.client.lastActivityMs ≥ w.client.keepaliveIntervalMs ∧
    messages w.trace = [] ∧ .sent .pingreq ∉ w.trace

instance : DecidablePred Trickle.Stuck := fun w =>
  inferInstanceAs (Decidable (w.client.state = _ ∧ _ ∧ _ ∧ _ ∧ _ ∧ _))

/-- The first PUBLISH is of QoS 1: when all bytes have come, the polls go on to report it, and the
client is stuck. -/
theorem rejected_stays :
    ∃ w w' w'' : World (List UInt8), Reachable w ∧ Trickle.Stuck w ∧
      poll w = .ok (.error (mkStatus .protocol .unsupported), w') ∧ Trickle.Stuck w' ∧
      poll w' = .ok (.error (mkStatus .protocol .unsupported), w'') ∧ Trickle.Stuck w'' := by
  obtain ⟨w, hr, -, hw, r, w', hpoll, rfl, hw', r', w'', hpoll', rfl, hw''⟩ := exists_reachable
    (P := fun w => Trickle.Stuck w ∧
      poll.Returns w fun r w' => r = .error (mkStatus .protocol .unsupported) ∧ Trickle.Stuck w' ∧
        poll.Returns w' fun r' w'' =>
          r' = .error (mkStatus .protocol .unsupported) ∧ Trickle.Stuck w'')
    Trickle.config ([0x20, 2, 0, 0] ++ Trickle.bad ++ Trickle.good)
    (.request .connect :: List.replicate 20 .poll) (by decide) (by decide +kernel)
  exact ⟨w, w', w'', hr, hw, hpoll, hw', hpoll', hw''⟩

end Aemlib
