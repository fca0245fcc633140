import Aemlib.Behaviour.Handshake
import Aemlib.Demo.Delivery

/-!
# The bytes of a poll

What one `aemlib_poll` of the demo does to the bytes on their way, when nothing is in it but
deliveries: the clock stands still, the callback does not call back, and what comes are packets that
the client accepts. A poll hands to the pair what there is room for, takes from it what the receive
buffer can hold, and takes the complete packets off what it then holds (`poll_flows`). While the
client waits for its CONNACK and that is the next packet to come, the poll that has it whole
connects and reads on.

`Flows` says this of any part of a poll, and the parts compose.
-/

namespace Aemlib

open Machine Proto Virtual

/-! ## The packet loop -/

section Loop

variable {σ : Type}

/-- A whole packet with a callback that does not call back: its message is told. Nothing changes but
what the callback does to the environment. -/
theorem clientDispatchPacket_takes {J : σ → Prop} {f : MessageFn σ} (hquiet : f.Quiet)
    (hJ : ∀ env topic payload, J env → J (f env topic payload).2) {p more : List UInt8}
    {w : World σ} {header : FixedHeader} (hs : w.client.Sound) (hf : w.client.onMessage = some f)
    (hheld : p ++ more = w.client.held) (hparse : parseHeader p = .ok header)
    (hlen : header.packetLen = p.length) (hmsg : packetMessage header p = .ok (messageOf p))
    (henv : J w.env) :
    ∃ env t, clientDispatchPacket header header.packetLen w =
        .ok (.ok (), ⟨w.client, env, t ++ w.trace⟩) ∧ J env ∧
      messages t = (messageOf p).toList := by
  have hn : header.packetLen ≤ w.client.rxLen := by
    rw [hlen, ← hs.length_held, ← hheld, List.length_append]
    exact Nat.le_add_right _ _
  have hparse' : parseHeader w.client.held = .ok header := by
    rw [← hheld]
    exact parseHeader_append_ok more hparse
  rw [clientDispatchPacket_eq hs hparse' hn, hlen, ← hheld, List.take_left, hmsg, hf]
  -- the callback runs exactly on a PUBLISH
  cases messageOf p with
  | none => exact ⟨w.env, [], rfl, henv, rfl⟩
  | some m =>
    obtain ⟨topic, payload⟩ := m
    refine ⟨(f w.env topic payload).2, [.message topic payload], ?_, hJ _ _ _ henv, rfl⟩
    show callOnMessage f topic payload w = _
    unfold callOnMessage
    simp only [Prog.run_get_bind, Prog.run_set_bind, hquiet w.env topic payload]
    rfl

/-- The packet loop on the beginning of a stream of packets, with a callback that does not call
back: it takes off what is complete and reports OK. Only `rx_buffer` changes, and what the callback
does to the environment. -/
theorem clientReadLoop_takes {J : σ → Prop} {f : MessageFn σ} (hquiet : f.Quiet)
    (hJ : ∀ env topic payload, J env → J (f env topic payload).2) {packets : List (List UInt8)}
    {w : World σ} {fuel : Nat} (hs : w.client.Sound) (hf : w.client.onMessage = some f)
    (hgood : ∀ p ∈ packets, WellFormed w.client.rxBufferSize p)
    (hpre : w.client.held <+: packets.flatten) (hfuel : w.client.rxLen < fuel) (henv : J w.env) :
    ∃ buf len env t done rest, clientReadLoop fuel w =
        .ok (.ok (), ⟨{ w.client with rxBuffer := buf, rxLen := len }, env, t ++ w.trace⟩) ∧
      Client.Sound { w.client with rxBuffer := buf, rxLen := len } ∧ J env ∧
      packets = done ++ rest ∧ w.client.held = done.flatten ++ buf.take len ∧
      messages t = done.filterMap messageOf ∧ ∀ p ∈ rest.head?, len < p.length := by
  -- the induction follows the packets; the loop's fuel follows it
  induction packets generalizing w fuel with
  | nil =>
    have hnil : w.client.held = [] := List.prefix_nil.mp hpre
    have hzero : w.client.rxLen = 0 := by rw [← hs.length_held, hnil, List.length_nil]
    cases fuel with
    | zero => exact absurd hfuel (Nat.not_lt_zero _)
    | succ fuel =>
      refine ⟨w.client.rxBuffer, w.client.rxLen, w.env, [], [], [], ?_, hs, henv, rfl, rfl, rfl,
        fun p hp => nomatch hp⟩
      rw [clientReadLoop_succ fuel hs, hnil]
      simp only [parseHeader, tooSmall_bufferTooSmall, if_true, hzero, ne_eq, not_true_eq_false,
        false_and, if_false]
      rw [← hzero]
      rfl
  | cons p packets ih =>
    obtain ⟨header, hparse, hlen, hsize, hmsg⟩ := (hgood p List.mem_cons_self).parse
    have hrx := hs.length_held
    rw [List.flatten_cons] at hpre
    cases fuel with
    | zero => exact absurd hfuel (Nat.not_lt_zero _)
    | succ fuel =>
      by_cases hle : p.length ≤ w.client.held.length
      · -- a whole packet: its message is told, it is dropped, and the rest follows
        obtain ⟨more, hheld⟩ :=
          List.prefix_of_prefix_length_le (List.prefix_append p packets.flatten) hpre hle
        have hparse' : parseHeader w.client.held = .ok header := by
          rw [← hheld]
          exact parseHeader_append_ok more hparse
        have hpos := two_le_packetLen hparse
        obtain ⟨env, t, hdisp, henv', hout⟩ :=
          clientDispatchPacket_takes hquiet hJ hs hf hheld hparse hlen hmsg henv
        have hcons : consume header.packetLen ⟨w.client, env, t ++ w.trace⟩ =
            .ok (.ok (), ⟨w.client.consumed header.packetLen, env, t ++ w.trace⟩) := by
          rw [consume_eq (w := ⟨w.client, env, t ++ w.trace⟩) hs, if_pos (by simp only; omega)]
        have hrest : (w.client.consumed header.packetLen).held = more := by
          rw [hs.held_consumed, ← hheld, hlen, List.drop_left]
        have hpre' : more <+: packets.flatten := by
          rw [← hheld] at hpre
          exact (List.prefix_append_right_inj p).mp hpre
        have hless : w.client.rxLen - header.packetLen < fuel := by omega
        obtain ⟨buf, len, env', t', done, rest, hloop, hs', hJ', hsplit, htaken, htold, hhead⟩ := ih
          (w := ⟨w.client.consumed header.packetLen, env, t ++ w.trace⟩) (hs.consumed _) hf
          (fun q hq => hgood q (List.mem_cons_of_mem p hq)) (hrest.symm ▸ hpre') hless henv'
        refine ⟨buf, len, env', t' ++ t, p :: done, rest, ?_, hs', hJ', congrArg _ hsplit, ?_, ?_,
          hhead⟩
        · rw [clientReadLoop_of_whole fuel hs hparse' (by omega), Prog.bind_of_ok hdisp,
            Prog.bind_of_ok hcons, hloop, List.append_assoc]
          rfl
        · rw [← hheld, List.flatten_cons, List.append_assoc, ← htaken, hrest]
        · rw [messages_append, hout, htold]
          cases hm : messageOf p <;> simp [hm]
      · -- the packet at the front is not complete, and the loop stops with the client as it is
        have hpre' : w.client.held <+: p :=
          List.prefix_of_prefix_length_le hpre (List.prefix_append p packets.flatten) (by omega)
        refine ⟨w.client.rxBuffer, w.client.rxLen, w.env, [], [], p :: packets, ?_, hs, henv, rfl,
          rfl, rfl, ?_⟩
        · exact clientReadLoop_of_incomplete hs hparse hlen hsize hpre' (by omega)
        · intro q hq
          cases hq
          omega

end Loop

namespace Virtual

/-- Nobody connected or disconnected, and the sizes are what they were. -/
structure Pair.Like (s s' : Pair) : Prop where
  endpoint : ∀ side, s'.loop.endpoint side = s.loop.endpoint side
  capacity : ∀ d, s'.capacity d = s.capacity d

theorem Pair.Like.refl (s : Pair) : s.Like s := ⟨fun _ => rfl, fun _ => rfl⟩

theorem Pair.Like.trans {s₁ s₂ s₃ : Pair} (h₁ : s₁.Like s₂) (h₂ : s₂.Like s₃) : s₁.Like s₃ :=
  ⟨fun side => (h₂.endpoint side).trans (h₁.endpoint side),
    fun d => (h₂.capacity d).trans (h₁.capacity d)⟩

variable {ρ : Type}

/-- If the transport was opened and closed in turns, the endpoint `a` is open when the trace says
so. -/
def Opened (n : Net ρ) (t : List Event) : Prop :=
  Throughout (fun e past => e.Paired past) (sinceInit t) →
    ((n.pair.loop.endpoint .a).connected = true ↔ openCount (sinceInit t) = 1)

theorem Opened.cons {n n' : Net ρ} {t : List Event} {e : Event} (h : Opened n t)
    (hinit : sinceInit (e :: t) = e :: sinceInit t)
    (hcount : openCount (e :: sinceInit t) = openCount (sinceInit t))
    (hend : n'.pair.loop.endpoint .a = n.pair.loop.endpoint .a) : Opened n' (e :: t) := by
  intro hpaired
  rw [hinit] at hpaired ⊢
  rw [hcount, hend]
  exact h hpaired.2

theorem Wired.keepsOpened {s : Setup (Net ρ)} (hs : Wired s) : s.Keeps Opened where
  mark e he env t h := by
    cases e with
    | connectCall | encode | refused | sent => exact h.cons rfl rfl rfl
    | _ => cases he
  disconnect f hf env t h := by
    rw [hs.transport] at hf
    cases hf
    intro hpaired
    -- a close is in its place only where the count is 1, so that none is open behind it
    have hone : openCount (sinceInit t) = 1 := hpaired.1
    show (Endpoint.connected (Loopback.endpoint _ .a) = true) ↔ openCount (sinceInit t) - 1 = 1
    rw [hone]
    exact ⟨(fun hc => nomatch hc), (fun hc => nomatch hc)⟩
  read f hf env t len h := by
    rw [hs.transport] at hf
    cases hf
    exact h.cons rfl rfl (Pair.endpoint_read _ _ _ _)
  write f hf env t data h := by
    rw [hs.transport] at hf
    cases hf
    exact h.cons rfl rfl (Pair.endpoint_write _ _ _ _)
  now f hf env t h := by
    refine h.cons rfl rfl ?_
    rw [(hs.nowMs f hf env).1]
  message f hf env t topic payload h := by
    refine h.cons rfl rfl ?_
    rw [(hs.onMessage f hf env topic payload).1]

theorem Wired.keepsConnectOpened {s : Setup (Net ρ)} (hs : Wired s) : s.KeepsConnect Opened := by
  intro f hf env t h hpaired
  rw [hs.transport] at hf
  cases hf
  have hzero : openCount (sinceInit t) = 0 := hpaired.1 rfl
  have hone : openCount (sinceInit (.connect statusOk :: t)) = 1 := by
    show (if statusOk = statusOk then 1 else 0) + openCount (sinceInit t) = 1
    rw [hzero]
    rfl
  exact ⟨fun _ => hone, fun _ => rfl⟩

end Virtual

namespace Demo

variable {τ : Type}

/-- Code of the client that hands `k` staged bytes to the pair, takes `m` stored bytes (or all that
there are) and takes `done` off what it holds. The broker has no part in it. -/
structure Flows (w : World (Net (Host τ))) (k m : Nat) (done : List (List UInt8))
    (w' : World (Net (Host τ))) : Prop where
  sound : w'.client.Sound
  setup : w'.client.setup = w.client.setup
  connectSent : w'.client.connectSent = w.client.connectSent
  like : w.env.pair.Like w'.env.pair
  broker : w'.env.rest.broker = w.env.rest.broker
  staged : w'.client.staged = w.client.staged.drop k
  up : w'.env.pair.stored .aToB = w.env.pair.stored .aToB ++ w.client.staged.take k
  down : w'.env.pair.stored .bToA = (w.env.pair.stored .bToA).drop m
  held : w.client.held ++ (w.env.pair.stored .bToA).take m = done.flatten ++ w'.client.held
  trace : ∃ t, w'.trace = t ++ w.trace ∧ messages t = done.filterMap messageOf

/-- One after the other; only the first of the two sends. -/
theorem Flows.trans {w₁ w₂ w₃ : World (Net (Host τ))} {k m m' : Nat}
    {done done' : List (List UInt8)} (h : Flows w₁ k m done w₂) (h' : Flows w₂ 0 m' done' w₃) :
    Flows w₁ k (m + m') (done ++ done') w₃ where
  sound := h'.sound
  setup := h'.setup.trans h.setup
  connectSent := h'.connectSent.trans h.connectSent
  like := h.like.trans h'.like
  broker := h'.broker.trans h.broker
  staged := h'.staged.trans h.staged
  up := by rw [h'.up, List.take_zero, List.append_nil, h.up]
  down := by rw [h'.down, h.down, List.drop_drop]
  held := by
    rw [List.take_add, ← List.append_assoc, h.held, List.append_assoc, ← h.down, h'.held,
      List.flatten_append, List.append_assoc]
  trace := by
    obtain ⟨t, ht, htold⟩ := h.trace
    obtain ⟨t', ht', htold'⟩ := h'.trace
    refine ⟨t' ++ t, ?_, ?_⟩
    · rw [ht', ht, List.append_assoc]
    · rw [messages_append, htold, htold', List.filterMap_append]

/-- Nothing is lost on the way down. -/
theorem Flows.downward {w w' : World (Net (Host τ))} {k m : Nat} {done : List (List UInt8)}
    (h : Flows w k m done w') :
    w.client.held ++ w.env.pair.stored .bToA =
      done.flatten ++ (w'.client.held ++ w'.env.pair.stored .bToA) := by
  rw [← List.append_assoc, ← h.held, List.append_assoc, h.down, List.take_append_drop]

/-- Nothing is lost on the way up. -/
theorem Flows.upward {w w' : World (Net (Host τ))} {k m : Nat} {done : List (List UInt8)}
    (h : Flows w k m done w') :
    w'.env.pair.stored .aToB ++ w'.client.staged = w.env.pair.stored .aToB ++ w.client.staged := by
  rw [h.up, h.staged, List.append_assoc, List.take_append_drop]

/-- The clock stands still. -/
def Still (s : Setup (Net (Host τ))) (now : UInt64) : Prop :=
  ∃ f, s.nowMs = some f ∧ ∀ n, (f n).1 = now

theorem Still.readClock {s : Setup (Net (Host τ))} {now : UInt64} (h : Still s now)
    {w : World (Net (Host τ))} (hsetup : w.client.setup = s) : w.readClock.1 = now := by
  obtain ⟨f, hf, hnow⟩ := h
  have hf' : w.client.nowMs = some f := by
    rw [← hf, ← hsetup]
    rfl
  unfold World.readClock
  rw [hf']
  exact hnow w.env

/-- Neither the CONNACK nor a ping is overdue. -/
def Early (s : Setup (Net (Host τ))) (now last : UInt64) : Prop :=
  ¬ now - last ≥ connackTimeoutMs ∧ ¬ now - last ≥ s.keepaliveIntervalMs

section

variable {s : Setup (Net (Host τ))} {w : World (Net (Host τ))} (hhosted : Hosted s)
  (hs : w.client.Sound) (hsetup : w.client.setup = s)

include hhosted hs hsetup

theorem readClock_flows : Flows w 0 0 [] w.readClock.2 := by
  -- the client is told apart from the rest, since the clock may change the environment only
  have hrun : ∃ t, w.readClock.2.trace = t ++ w.trace ∧ messages t = [] ∧
      w.env.pair.Like w.readClock.2.env.pair ∧
      w.readClock.2.env.rest.broker = w.env.rest.broker ∧
      ∀ d, w.readClock.2.env.pair.stored d = w.env.pair.stored d := by
    unfold World.readClock
    split
    · exact ⟨[], rfl, rfl, .refl _, rfl, fun _ => rfl⟩
    · next f hf =>
      have hf' : s.nowMs = some f := hsetup ▸ hf
      have hpair := (hhosted.nowMs f hf' w.env).1
      refine ⟨[.now (f w.env).1], rfl, rfl, ?_, hhosted.nowBroker f hf' w.env, fun d => ?_⟩
      · rw [show (f w.env).2.pair = w.env.pair from hpair]
        exact .refl _
      · exact congrArg (fun p => Pair.stored p d) hpair
  obtain ⟨t, ht, htold, hlike, hbroker, hstored⟩ := hrun
  exact
    { sound := by rw [readClock_client]; exact hs
      setup := by rw [readClock_client]
      connectSent := by rw [readClock_client]
      like := hlike
      broker := hbroker
      staged := by rw [readClock_client, List.drop_zero]
      up := by rw [hstored, List.take_zero, List.append_nil]
      down := by rw [hstored, List.drop_zero]
      held := by rw [readClock_client, List.take_zero, List.append_nil]; rfl
      trace := ⟨t, ht, htold⟩ }

theorem stamped_flows : Flows w 0 0 [] w.stamped := by
  have hclock := readClock_flows hhosted hs hsetup
  exact
    { sound := { hs with }
      setup := rfl
      connectSent := rfl
      like := hclock.like
      broker := hclock.broker
      staged := List.drop_zero.symm
      up := hclock.up
      down := hclock.down
      held := by rw [List.take_zero, List.append_nil]; rfl
      trace := hclock.trace }

omit hhosted hsetup in
/-- A packet is taken off. -/
theorem consumed_flows {p more : List UInt8} {state : State} (hheld : w.client.held = p ++ more)
    (hsound : Client.Sound { w.client.consumed p.length with state := state })
    (hsilent : messageOf p = none) :
    Flows w 0 0 [p] ⟨{ w.client.consumed p.length with state := state }, w.env, w.trace⟩ where
  sound := hsound
  setup := rfl
  connectSent := rfl
  like := .refl _
  broker := rfl
  staged := List.drop_zero.symm
  up := by rw [List.take_zero, List.append_nil]
  down := List.drop_zero.symm
  held := by
    have hmore : (w.client.consumed p.length).held = more := by
      rw [hs.held_consumed, hheld, List.drop_left]
    rw [List.take_zero, List.append_nil, List.flatten_singleton, hheld]
    exact congrArg _ hmore.symm
  trace := by
    refine ⟨[], rfl, ?_⟩
    rw [List.filterMap_cons, hsilent]
    rfl

variable (hopen : (w.env.pair.loop.endpoint .a).connected = true)

include hopen

/-- A flush hands over what there is room for. -/
theorem clientFlushPending_flows {k : Nat} (hk : k = min w.client.staged.length
      (w.env.pair.capacity .aToB - (w.env.pair.stored .aToB).length)) :
    ∃ w₁, clientFlushPending w = .ok (.ok (), w₁) ∧ Flows w k 0 [] w₁ ∧
      w₁.client.state = w.client.state ∧
      w₁.client.lastActivityMs = w.client.lastActivityMs := by
  have hlen := hs.length_staged
  by_cases hzero : w.client.txPendingLen = 0
  · -- nothing is staged: the transport is not called
    have hnil : w.client.staged = [] := Client.staged_eq_nil hzero
    rw [hnil, List.length_nil, Nat.zero_min] at hk
    refine ⟨w, clientFlushPending_nil hzero, ?_, rfl, rfl⟩
    subst hk
    exact
      { sound := hs
        setup := rfl
        connectSent := rfl
        like := .refl _
        broker := rfl
        staged := List.drop_zero.symm
        up := by rw [List.take_zero, List.append_nil]
        down := List.drop_zero.symm
        held := by rw [List.take_zero, List.append_nil]; rfl
        trace := ⟨[], rfl, rfl⟩ }
  · have htransport : w.client.transport = transportBind := by
      rw [← hhosted.transport, ← hsetup]
      rfl
    have hf : w.client.transport.write = some fun n data =>
        ((n.pair.write .a data).1, { n with pair := (n.pair.write .a data).2 }) := by
      rw [htransport]
      rfl
    obtain ⟨hres, hpair⟩ := w.env.pair.write_open hopen w.client.staged hk
    have hrun := clientFlushPending_eq hs (Nat.pos_of_ne_zero hzero) hf rfl
    -- a full pair answers `WOULD_BLOCK`, which counts as no bytes taken; otherwise it takes `k`
    have hwritten : ¬ HardError (w.env.pair.write .a w.client.staged).1.status ∧
        (w.env.pair.write .a w.client.staged).1.written = k := by
      rw [hres]
      by_cases hfull : k = 0 ∧ 0 < w.client.staged.length
      · rw [if_pos hfull]
        have hnot : ¬ HardError ioWouldBlock := by decide
        refine ⟨hnot, ?_⟩
        rw [WriteResult.written_eq hnot, if_neg (show ioWouldBlock ≠ statusOk by decide), hfull.1]
      · rw [if_neg hfull]
        have hnot : ¬ HardError statusOk := by decide
        refine ⟨hnot, ?_⟩
        rw [WriteResult.written_eq hnot, if_pos rfl]
    rw [if_neg hwritten.1, hwritten.2, if_pos (by omega)] at hrun
    refine ⟨_, hrun, ?_, rfl, rfl⟩
    exact
      { sound := hs.unstage k
        setup := rfl
        connectSent := rfl
        like := ⟨fun side => Pair.endpoint_write _ _ _ _, fun d => (hpair d).2⟩
        broker := rfl
        staged := hs.staged_unstage k
        up := (hpair .aToB).1
        down := (hpair .bToA).1
        held := by rw [List.take_zero, List.append_nil]; rfl
        trace := ⟨[_], rfl, rfl⟩ }

/-- What the transport has to read goes behind what is held. -/
theorem afterRead_flows {m : Nat} (hm : m = w.client.rxBufferSize - w.client.rxLen) :
    ∃ res env, (∀ read, w.client.transport.read = some read → read w.env m = (res, env)) ∧
      res.status = statusOk ∧ w.client.rxLen + res.data.length ≤ w.client.rxBufferSize ∧
      (w.afterRead res env).client.held =
        w.client.held ++ (w.env.pair.stored .bToA).take m ∧
      Flows w 0 m [] (w.afterRead res env) := by
  have htransport : w.client.transport = transportBind := by
    rw [← hhosted.transport, ← hsetup]
    rfl
  have hheld := hs.rxHeld
  obtain ⟨hres, hpair⟩ := w.env.pair.read_open hopen m
  have hres' : (w.env.pair.read .a m).1 = ⟨statusOk, (w.env.pair.stored .bToA).take m⟩ := hres
  -- client_read asks for what rx_buffer has room for
  have hfits : w.client.rxLen + (w.env.pair.read .a m).1.data.length ≤ w.client.rxBufferSize := by
    rw [hres', List.length_take]
    omega
  have hnew : (w.client.received (w.env.pair.read .a m).1).held =
      w.client.held ++ (w.env.pair.stored .bToA).take m := by
    rw [hs.held_received, hres']
    rfl
  refine ⟨(w.env.pair.read .a m).1, { w.env with pair := (w.env.pair.read .a m).2 }, ?_, ?_, hfits,
    hnew, ?_⟩
  · intro read hread
    rw [htransport] at hread
    cases hread
    rfl
  · rw [hres']
  · exact
      { sound := hs.received hfits
        setup := rfl
        connectSent := rfl
        like := ⟨fun side => Pair.endpoint_read _ _ _ _, fun d => (hpair d).2⟩
        broker := rfl
        staged := List.drop_zero.symm
        up := (hpair .aToB).1.trans (by rw [List.take_zero, List.append_nil]; rfl)
        down := (hpair .bToA).1
        held := hnew.symm
        trace := ⟨[_], rfl, rfl⟩ }

/-- A read and the packet loop. -/
theorem clientRead_flows {f : MessageFn (Net (Host τ))} {feed : List (List UInt8)}
    (hf : s.onMessage = some f) (hquiet : f.Quiet)
    (hgood : ∀ p ∈ feed, WellFormed s.rxBufferSize p) (hstate : w.client.state = .mqttConnected)
    (hpre : w.client.held ++ w.env.pair.stored .bToA <+: feed.flatten) :
    ∃ w' done rest, clientRead w = .ok (.ok (), w') ∧
      Flows w 0 (w.client.rxBufferSize - w.client.rxLen) done w' ∧ feed = done ++ rest ∧
      (∀ p ∈ rest.head?, w'.client.rxLen < p.length) ∧ w'.client.state = .mqttConnected ∧
      w'.client.lastActivityMs = w.client.lastActivityMs := by
  obtain ⟨read, close, hread, -⟩ := hs.exists_read (by rw [hstate]; decide) (by rw [hstate]; decide)
  obtain ⟨res, env, hcall, hok, hfits, hheld, hflows⟩ := afterRead_flows hhosted hs hsetup hopen rfl
  have hrun := clientRead_eq hs hread (hcall read hread)
  have hnot : ¬ HardError res.status := by
    rw [hok]
    decide
  rw [if_pos hfits, if_neg hnot] at hrun
  have hsize : s.rxBufferSize = w.client.rxBufferSize := by
    rw [← hsetup]
    rfl
  have hf' : w.client.onMessage = some f := by
    rw [← hf, ← hsetup]
    rfl
  have hpre' : (w.afterRead res env).client.held <+: feed.flatten := by
    rw [hheld]
    refine List.IsPrefix.trans ?_ hpre
    exact (List.prefix_append_right_inj _).mpr (List.take_prefix _ _)
  -- the callback may change what it keeps for itself, but neither the pair nor the broker
  obtain ⟨buf, len, env', t, done, rest, hloop, hs', hJ, hsplit, htaken, htold, hhead⟩ :=
    clientReadLoop_takes (J := fun n => n.pair = env.pair ∧ n.rest.broker = env.rest.broker) hquiet
      (fun n topic payload hn => ⟨(hhosted.onMessage f hf n topic payload).1.trans hn.1,
        (hhosted.messageBroker f hf n topic payload).trans hn.2⟩)
      (w := w.afterRead res env) (hs.received hfits) hf' (hsize ▸ hgood) hpre'
      (Nat.lt_succ_self _) ⟨rfl, rfl⟩
  refine ⟨_, done, rest, hrun.trans hloop, ?_, hsplit, hhead, hstate, rfl⟩
  -- behind the loop only `rx_buffer` is another; the pair is as the read has left it
  exact
    { sound := hs'
      setup := rfl
      connectSent := rfl
      like := by
        rw [show (World.env ⟨_, env', _⟩).pair = env.pair from hJ.1]
        exact hflows.like
      broker := hJ.2.trans hflows.broker
      staged := List.drop_zero.symm
      up := by
        rw [show (World.env ⟨_, env', _⟩).pair = env.pair from hJ.1]
        exact hflows.up
      down := by
        rw [show (World.env ⟨_, env', _⟩).pair = env.pair from hJ.1]
        exact hflows.down
      held := hheld.symm.trans htaken
      trace := by
        refine ⟨t ++ [.read (w.client.rxBufferSize - w.client.rxLen) res], ?_, ?_⟩
        · rw [List.append_assoc]
          rfl
        · rw [messages_append, ← htold]
          rfl }

/-- A turn of the CONNACK wait, with a CONNACK on its way. -/
theorem corePoll_flows {now : UInt64} {feed : List (List UInt8)} (hstill : Still s now)
    (hsize : 4 ≤ s.rxBufferSize) (hstate : w.client.state = .mqttConnectSent)
    (hearly : Early s now w.client.lastActivityMs)
    (hpre : w.client.held ++ w.env.pair.stored .bToA <+: connack ++ feed.flatten) :
    ∃ w' done, Core.poll w = .ok (.ok (), w') ∧
      Flows w 0 (w.client.rxBufferSize - w.client.rxLen) done w' ∧
      ((done = [] ∧ w'.client.state = .mqttConnectSent ∧ w'.client.rxLen < 4 ∧
          w'.client.lastActivityMs = w.client.lastActivityMs) ∨
        (done = [connack] ∧ w'.client.state = .mqttConnected ∧
          w'.client.lastActivityMs = now)) := by
  obtain ⟨res, env, hcall, hok, hfits, hheld, hflows⟩ := afterRead_flows hhosted hs hsetup hopen rfl
  obtain ⟨read, close, res', env', hread, hcall', hcore⟩ := corePoll_waits hs hstate
  rw [hcall read hread] at hcall'
  cases hcall'
  rcases hcore with ⟨hover, -⟩ | ⟨-, r, w', hrun, hwaits⟩
  · exact absurd hfits (Nat.not_le.mpr hover)
  have hnot : ¬ HardError res.status := by
    rw [hok]
    decide
  have hsetup₁ : (w.afterRead res env).client.setup = s := hsetup
  have hpre₁ : (w.afterRead res env).client.held <+: connackBytes 0 ++ feed.flatten := by
    rw [hheld]
    refine List.IsPrefix.trans ?_ hpre
    exact (List.prefix_append_right_inj _).mpr (List.take_prefix _ _)
  have hsize₁ : 4 ≤ (w.afterRead res env).client.rxBufferSize := by
    have : s.rxBufferSize = w.client.rxBufferSize := by
      rw [← hsetup]
      rfl
    exact this ▸ hsize
  have hlen₁ := hflows.sound.length_held
  -- on the beginning of CONNACK and what follows, the verdict is to wait or to accept
  have hverdict := connackVerdict_of_prefix hsize₁ hpre₁
  have hequip := hs.equipped (by rw [hstate]; decide) (by rw [hstate]; decide)
  cases hwaits with
  | failed hres => exact absurd hres hnot
  | rejected status w' hres hv =>
    rw [hverdict] at hv
    split at hv <;> cases hv
  | timedOut hres hv hlate =>
    rw [hstill.readClock hsetup₁] at hlate
    exact absurd hlate hearly.1
  | waiting hres hv =>
    -- less than four bytes have come
    have hshort : (w.afterRead res env).client.held.length < 4 := by
      rw [hverdict] at hv
      split at hv
      · assumption
      · cases hv
    refine ⟨_, [], hrun, hflows.trans (readClock_flows hhosted hflows.sound hsetup₁),
      Or.inl ⟨rfl, ?_, ?_, ?_⟩⟩
    · rw [readClock_client]
      exact hstate
    · rw [readClock_client, ← hlen₁]
      exact hshort
    · rw [readClock_client]
      rfl
  | accepted n hres hv hn =>
    have hlong : 4 ≤ (w.afterRead res env).client.held.length ∧ n = 4 := by
      rw [hverdict] at hv
      split at hv
      · cases hv
      · next hge =>
        cases hv
        exact ⟨Nat.not_lt.mp hge, rfl⟩
    obtain ⟨hfour, rfl⟩ := hlong
    -- the CONNACK is taken off, and then the time is noted
    obtain ⟨more, hmore⟩ : connack <+: (w.afterRead res env).client.held :=
      List.prefix_of_prefix_length_le (List.prefix_append _ _) hpre₁ hfour
    have hsound : Client.Sound { (w.afterRead res env).client.consumed connack.length with
        state := .mqttConnected } :=
      (hflows.sound.consumed 4).withState hequip .mqttConnected
    have hconsumed := consumed_flows hflows.sound hmore.symm hsound rfl
    have hstamped := stamped_flows hhosted hconsumed.sound (show _ = s from hsetup)
    refine ⟨_, [connack], hrun, (hflows.trans hconsumed).trans hstamped, Or.inr ⟨rfl, rfl, ?_⟩⟩
    exact hstill.readClock (w := ⟨{ (w.afterRead res env).client.consumed 4 with
      state := .mqttConnected }, _, _⟩) hsetup

/-- Where the client is in the handshake: connected, or the CONNACK is the next to come. -/
def Greeted (feed : List (List UInt8)) (c : Client (Net (Host τ))) : Prop :=
  c.state = .mqttConnected ∨
    c.state = .mqttConnectSent ∧ c.connectSent = true ∧ ∃ behind, feed = connack :: behind

/-- The end of a poll that finds or makes the client connected. -/
theorem readAndKeepalive_flows {now : UInt64} {f : MessageFn (Net (Host τ))}
    {feed : List (List UInt8)} (hstill : Still s now) (hf : s.onMessage = some f)
    (hquiet : f.Quiet) (hgood : ∀ p ∈ feed, WellFormed s.rxBufferSize p)
    (hstate : w.client.state = .mqttConnected) (hearly : Early s now w.client.lastActivityMs)
    (hpre : w.client.held ++ w.env.pair.stored .bToA <+: feed.flatten) :
    ∃ w' done rest, (clientRead >>= fun _ => keepalive) w = .ok (.ok (), w') ∧
      Flows w 0 (w.client.rxBufferSize - w.client.rxLen) done w' ∧ feed = done ++ rest ∧
      (∀ p ∈ rest.head?, w'.client.rxLen < p.length) ∧ w'.client.state = .mqttConnected ∧
      w'.client.lastActivityMs = w.client.lastActivityMs := by
  obtain ⟨w₁, done, rest, hread, hflows, hsplit, hhead, hstate₁, hlast⟩ :=
    clientRead_flows hhosted hs hsetup hopen hf hquiet hgood hstate hpre
  have hsetup₁ : w₁.client.setup = s := hflows.setup.trans hsetup
  have hkeep : keepalive w₁ = .ok (.ok (), w₁.readClock.2) := by
    -- the reading notes no time, so that the ping is as early as before
    have hnot : ¬ now - w₁.client.lastActivityMs ≥ w₁.client.keepaliveIntervalMs := by
      rw [hlast, show w₁.client.keepaliveIntervalMs = s.keepaliveIntervalMs from
        congrArg Setup.keepaliveIntervalMs hsetup₁]
      exact hearly.2
    unfold keepalive
    rw [Prog.bind_of_ok (timeNow_eq w₁)]
    simp only [run_getClient_bind, Prog.run_ite, readClock_client, hstill.readClock hsetup₁]
    rw [if_neg hnot]
    rfl
  refine ⟨w₁.readClock.2, done, rest, ?_, ?_, hsplit, ?_, ?_, ?_⟩
  · rw [Prog.bind_of_ok hread]
    exact hkeep
  · have hboth := hflows.trans (readClock_flows hhosted hflows.sound hsetup₁)
    rwa [List.append_nil] at hboth
  · rwa [readClock_client]
  · rwa [readClock_client]
  · rwa [readClock_client]

/-- **A poll.** It hands over what there is room for and takes what it can hold; of what it holds it
takes off what is complete. -/
theorem poll_flows {now : UInt64} {f : MessageFn (Net (Host τ))} {feed : List (List UInt8)}
    {k : Nat} (hstill : Still s now) (hf : s.onMessage = some f) (hquiet : f.Quiet)
    (hgood : ∀ p ∈ feed, WellFormed s.rxBufferSize p) (hgreeted : Greeted feed w.client)
    (hearly : Early s now w.client.lastActivityMs)
    (hpre : w.client.held ++ w.env.pair.stored .bToA <+: feed.flatten)
    (hk : k = min w.client.staged.length
      (w.env.pair.capacity .aToB - (w.env.pair.stored .aToB).length)) :
    ∃ w' m done rest, poll w = .ok (.ok (), w') ∧ Flows w k m done w' ∧
      s.rxBufferSize - w.client.held.length ≤ m ∧ feed = done ++ rest ∧
      (∀ p ∈ rest.head?, w'.client.held.length < p.length) ∧ Greeted rest w'.client ∧
      Early s now w'.client.lastActivityMs := by
  obtain ⟨w₁, hflush, hflows₁, hstate₁, hlast₁⟩ :=
    clientFlushPending_flows hhosted hs hsetup hopen hk
  have hs₁ := hflows₁.sound
  have hsetup₁ : w₁.client.setup = s := hflows₁.setup.trans hsetup
  have hopen₁ : (w₁.env.pair.loop.endpoint .a).connected = true := by
    rw [hflows₁.like.endpoint]
    exact hopen
  have hearly₁ : Early s now w₁.client.lastActivityMs := hlast₁ ▸ hearly
  have hpre₁ : w₁.client.held ++ w₁.env.pair.stored .bToA <+: feed.flatten := by
    rw [hflows₁.downward] at hpre
    exact hpre
  have hroom : w₁.client.rxBufferSize - w₁.client.rxLen =
      s.rxBufferSize - w.client.held.length := by
    have hheld := hflows₁.held
    rw [List.take_zero, List.append_nil] at hheld
    rw [← hs₁.length_held, hheld, ← hsetup₁]
    rfl
  -- a time noted just now is early, since no interval is 0 where one was early before
  have hnow : Early s now now := by
    refine ⟨by rw [UInt64.sub_self]; decide, fun hle => hearly.2 ?_⟩
    rw [UInt64.sub_self] at hle
    exact UInt64.le_trans hle (UInt64.zero_le)
  rcases hgreeted with hstate | ⟨hstate, hsent, behind, rfl⟩
  · rw [← hstate₁] at hstate
    obtain ⟨w', done, rest, hrun, hflows, hsplit, hhead, hstate', hlast⟩ :=
      readAndKeepalive_flows hhosted hs₁ hsetup₁ hopen₁ hstill hf hquiet hgood hstate hearly₁ hpre₁
    refine ⟨w', _, done, rest, ?_, hflows₁.trans hflows, ?_, hsplit, ?_, Or.inl hstate',
      hlast ▸ hearly₁⟩
    · rw [poll_of_connected hflush (corePoll_of_idle (Or.inr hstate)) hstate, hrun]
    · rw [hroom, Nat.zero_add]
    · rw [hflows.sound.length_held]
      exact hhead
  · rw [← hstate₁] at hstate
    have hfour : 4 ≤ s.rxBufferSize := by
      obtain ⟨-, -, -, hle, -⟩ := hgood connack List.mem_cons_self
      exact hle
    rw [List.flatten_cons] at hpre₁
    obtain ⟨w₂, done, hcore, hflows₂, hcases⟩ := corePoll_flows hhosted hs₁ hsetup₁ hopen₁ hstill
      hfour hstate hearly₁ hpre₁
    have hflows := hflows₁.trans hflows₂
    have hsetup₂ : w₂.client.setup = s := hflows.setup.trans hsetup
    rcases hcases with ⟨rfl, hstate₂, hshort, hlast₂⟩ | ⟨rfl, hstate₂, hlast₂⟩
    · -- still waiting; the CONNECT is out
      have hsent₂ : w₂.client.connectSent = true := hflows.connectSent.trans hsent
      have hrun : poll w = .ok (.ok (), w₂) := by
        unfold poll
        rw [Prog.bind_of_ok hflush, Prog.bind_of_ok hcore]
        simp only [run_getClient_bind, hstate₂]
        unfold pollConnectSent
        simp only [run_getClient_bind, hsent₂]
        rfl
      refine ⟨w₂, _, [], connack :: behind, hrun, hflows, ?_, rfl, ?_,
        Or.inr ⟨hstate₂, hsent₂, behind, rfl⟩, hlast₂ ▸ hearly₁⟩
      · rw [hroom, Nat.zero_add]
      · intro p hp
        cases hp
        rw [hflows.sound.length_held]
        exact hshort
    · -- connected: the same poll reads on
      have hopen₂ : (w₂.env.pair.loop.endpoint .a).connected = true := by
        rw [hflows.like.endpoint]
        exact hopen
      have hpre₂ : w₂.client.held ++ w₂.env.pair.stored .bToA <+: behind.flatten := by
        have hdown := hflows₂.downward
        rw [List.flatten_singleton] at hdown
        rw [hdown] at hpre₁
        exact (List.prefix_append_right_inj _).mp hpre₁
      obtain ⟨w', done, rest, hrun, hflows₃, hsplit, hhead, hstate', hlast⟩ :=
        readAndKeepalive_flows hhosted hflows.sound hsetup₂ hopen₂ hstill hf hquiet
          (fun p hp => hgood p (List.mem_cons_of_mem _ hp)) hstate₂ (hlast₂ ▸ hnow) hpre₂
      refine ⟨w', _, _, rest, ?_, hflows.trans hflows₃, ?_, congrArg (List.cons connack) hsplit, ?_,
        Or.inl hstate', hlast ▸ hlast₂ ▸ hnow⟩
      · rw [poll_of_connected hflush hcore hstate₂, hrun]
      · rw [hroom, Nat.zero_add]
        exact Nat.le_add_right _ _
      · rw [hflows₃.sound.length_held]
        exact hhead

end

end Demo

end Aemlib
