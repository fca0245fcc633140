import Aemlib.Behaviour.Bounds
import Aemlib.Trace
import Mathlib.Logic.Function.Iterate

/-!
# Packet identifiers

Every `aemlib_subscribe` with QoS 0 draws an id from a counter of 16 bits that skips 0, before it
knows whether its packet can be sent. The counter never leaves `1..65535`, and it comes round only
after 65535 draws: this holds over whole runs, through reconnects, failed calls and calls made from
inside the message callback.

The ids are read off the trace, where each send path leaves the packet it passes to its encoder.
`Draws` says what a piece of the library does to the counter and to these ids, and which messages it
tells; a poll draws what the callback asks for when it is told its messages (`Answers`).
-/

namespace Aemlib

open Machine Proto

variable {σ : Type}

/-! ## The counter -/

def packetIdAfterDraws (id : UInt16) (n : Nat) : UInt16 := packetIdAfter^[n] id

def drawnIds (id : UInt16) (n : Nat) : List UInt16 :=
  (List.range n).map fun k => packetIdAfterDraws id (k + 1)

/-- One draw, in numbers: 65535 is followed by 1. -/
theorem toNat_packetIdAfter (id : UInt16) : (packetIdAfter id).toNat = id.toNat % 65535 + 1 := by
  have hlt := id.toNat_lt
  have hnext : (id + 1).toNat = (id.toNat + 1) % 65536 := by
    rw [UInt16.toNat_add]
    rfl
  unfold packetIdAfter
  split
  · next hzero =>
    rw [hzero] at hnext
    have hnat : (0 : UInt16).toNat = 0 := rfl
    have hone : (1 : UInt16).toNat = 1 := rfl
    omega
  · next hne =>
    have hpos : (id + 1).toNat ≠ 0 := fun h => hne (UInt16.toNat_inj.mp h)
    omega

/-- **The closed form.** The counter starts at 1. -/
theorem toNat_packetIdAfterDraws (n : Nat) : (packetIdAfterDraws 1 n).toNat = n % 65535 + 1 := by
  induction n with
  | zero => rfl
  | succ n ih =>
    rw [packetIdAfterDraws, Function.iterate_succ_apply', toNat_packetIdAfter]
    rw [packetIdAfterDraws] at ih
    omega

theorem packetIdAfterDraws_add (id : UInt16) (m n : Nat) :
    packetIdAfterDraws id (m + n) = packetIdAfterDraws (packetIdAfterDraws id m) n := by
  rw [packetIdAfterDraws, Nat.add_comm, Function.iterate_add_apply]
  rfl

/-- Draws in two goes. -/
theorem drawnIds_add (id : UInt16) (m n : Nat) :
    drawnIds id (m + n) = drawnIds id m ++ drawnIds (packetIdAfterDraws id m) n := by
  rw [drawnIds, List.range_add, List.map_append, List.map_map, drawnIds, drawnIds]
  congr 1
  refine List.map_congr_left fun k _ => ?_
  rw [← packetIdAfterDraws_add, Function.comp_apply, Nat.add_assoc]

/-- The draws by their place in the order. -/
theorem getElem?_drawnIds {n k : Nat} {id : UInt16} (h : (drawnIds 1 n)[k]? = some id) :
    k < n ∧ id.toNat = (k + 1) % 65535 + 1 := by
  rw [drawnIds, List.getElem?_map, Option.map_eq_some_iff] at h
  obtain ⟨j, hj, rfl⟩ := h
  obtain ⟨hlt, rfl⟩ := List.getElem?_eq_some_iff.mp hj
  rw [List.length_range] at hlt
  rw [List.getElem_range]
  exact ⟨hlt, toNat_packetIdAfterDraws _⟩

/-! ## Ids in a trace -/

def Proto.Packet.subscribeId : Packet → Option UInt16
  | .subscribe packetId _ => some packetId
  | _ => none

/-- The ids of the SUBSCRIBE packets that were passed to the encoder, oldest first. -/
def subscribeIds : List Event → List UInt16
  | [] => []
  | .encode _ _ p :: t => subscribeIds t ++ p.subscribeId.toList
  | _ :: t => subscribeIds t

def Request.draws : Request → Bool
  | .subscribe _ qos => qos = 0
  | _ => false

/-- Does this event neither carry an id nor start the count over? -/
def Event.isUnnumbered : Event → Bool
  | .init | .encode _ _ _ => false
  | _ => true

theorem subscribeIds_append (t past : List Event) :
    subscribeIds (t ++ past) = subscribeIds past ++ subscribeIds t := by
  induction t with
  | nil => rw [List.nil_append, subscribeIds, List.append_nil]
  | cons e t ih =>
    cases e with
    | encode s n p =>
      rw [List.cons_append, subscribeIds, subscribeIds, ih, List.append_assoc]
    | _ => exact ih

theorem subscribeIds_of_unnumbered {t : List Event} (h : ∀ e ∈ t, e.isUnnumbered = true) :
    subscribeIds t = [] := by
  induction t with
  | nil => rfl
  | cons e t ih =>
    have hrest := ih fun e' he' => h e' (List.mem_cons_of_mem e he')
    have hfirst := h e List.mem_cons_self
    cases e with
    | encode s n p => cases hfirst
    | _ => exact hrest

theorem sinceInit_append {t past : List Event} (h : .init ∉ t) :
    sinceInit (t ++ past) = t ++ sinceInit past := by
  induction t with
  | nil => rfl
  | cons e t ih =>
    rw [List.mem_cons, not_or] at h
    have hrest := ih h.2
    cases e with
    | init => exact absurd rfl h.1
    | _ => exact congrArg _ hrest

abbrev Telling (σ : Type) := σ × List UInt8 × List UInt8

/-- What a piece of the library does that draws `n` ids, tells the messages of `told` and does not
start over. -/
structure Draws (n : Nat) (told : List (Telling σ)) (w w' : World σ) : Prop where
  packetId : w'.client.packetId = packetIdAfterDraws w.client.packetId n
  onMessage : w'.client.onMessage = w.client.onMessage
  trace : ∃ t, w'.trace = t ++ w.trace ∧ .init ∉ t ∧
    subscribeIds t = drawnIds w.client.packetId n ∧ messages t = told.map Prod.snd

theorem Draws.trans {m n : Nat} {told told' : List (Telling σ)} {w₁ w₂ w₃ : World σ}
    (h₁ : Draws m told w₁ w₂) (h₂ : Draws n told' w₂ w₃) :
    Draws (m + n) (told ++ told') w₁ w₃ := by
  obtain ⟨hid₁, hon₁, t₁, ht₁, hinit₁, hids₁, htold₁⟩ := h₁
  obtain ⟨hid₂, hon₂, t₂, ht₂, hinit₂, hids₂, htold₂⟩ := h₂
  refine ⟨?_, hon₂.trans hon₁, t₂ ++ t₁, ?_, ?_, ?_, ?_⟩
  · rw [hid₂, hid₁, packetIdAfterDraws_add]
  · rw [ht₂, ht₁, List.append_assoc]
  · rw [List.mem_append, not_or]
    exact ⟨hinit₂, hinit₁⟩
  · rw [subscribeIds_append, hids₁, hids₂, hid₁, drawnIds_add]
  · rw [messages_append, htold₁, htold₂, List.map_append]

/-- Code that leaves the counter alone, encodes nothing and tells nothing. -/
theorem Draws.none {w w' : World σ} (t : List Event)
    (hid : w'.client.packetId = w.client.packetId)
    (hon : w'.client.onMessage = w.client.onMessage) (ht : w'.trace = t ++ w.trace)
    (h : ∀ e ∈ t, e.isUnnumbered = true) (htold : messages t = []) : Draws 0 [] w w' := by
  refine ⟨hid, hon, t, ht, fun hmem => ?_, subscribeIds_of_unnumbered h, htold⟩
  cases h _ hmem

theorem Draws.refl (w : World σ) : Draws 0 [] w w := .none [] rfl rfl rfl (by simp) rfl

theorem Draws.then_none {w₁ w₂ w₃ : World σ} (h₁ : Draws 0 [] w₁ w₂) (h₂ : Draws 0 [] w₂ w₃) :
    Draws 0 [] w₁ w₃ := h₁.trans h₂

/-- How many of the requests that a callback answers messages with draw an id. -/
def askedFor (f : Option (MessageFn σ)) (told : List (Telling σ)) : Nat :=
  match f with
  | some f => (told.flatMap fun m => (f m.1 m.2.1 m.2.2).1).countP Request.draws
  | none => 0

theorem askedFor_append (f : Option (MessageFn σ)) (told told' : List (Telling σ)) :
    askedFor f (told ++ told') = askedFor f told + askedFor f told' := by
  cases f with
  | none => rfl
  | some f => simp only [askedFor, List.flatMap_append, List.countP_append]

theorem askedFor_nil (f : Option (MessageFn σ)) : askedFor f [] = 0 := by
  cases f <;> rfl

/-- The ids drawn are those that the callback has asked for. -/
def Answers (w w' : World σ) : Prop :=
  ∃ told, Draws (askedFor w.client.onMessage told) told w w'

theorem Draws.answers {w w' : World σ} (h : Draws 0 [] w w') : Answers w w' := by
  refine ⟨[], ?_⟩
  rw [askedFor_nil]
  exact h

theorem Answers.trans {w₁ w₂ w₃ : World σ} (h₁ : Answers w₁ w₂) (h₂ : Answers w₂ w₃) :
    Answers w₁ w₃ := by
  obtain ⟨told, h₁⟩ := h₁
  obtain ⟨told', h₂⟩ := h₂
  refine ⟨told ++ told', ?_⟩
  rw [h₁.onMessage] at h₂
  rw [askedFor_append]
  exact h₁.trans h₂

def Numbers (w w' : World σ) : Prop := ∃ n told, Draws n told w w'

theorem Draws.numbers {n : Nat} {told : List (Telling σ)} {w w' : World σ}
    (h : Draws n told w w') : Numbers w w' := ⟨n, told, h⟩

theorem Answers.numbers {w w' : World σ} (h : Answers w w') : Numbers w w' := by
  obtain ⟨told, h⟩ := h
  exact h.numbers

theorem Numbers.trans {w₁ w₂ w₃ : World σ} (h₁ : Numbers w₁ w₂) (h₂ : Numbers w₂ w₃) :
    Numbers w₁ w₃ := by
  obtain ⟨m, told, hm⟩ := h₁
  obtain ⟨n, told', hn⟩ := h₂
  exact (hm.trans hn).numbers

/-! ## Requests -/

theorem Flushes.draws {w w' : World σ} {r : Except Status Unit} (h : Flushes w r w') :
    Draws 0 [] w w' := by
  cases h with
  | idle hzero => exact .refl w
  | failed => exact .none [_] rfl rfl rfl (by simp [Event.isUnnumbered]) rfl
  | flushed => exact .none [_] rfl rfl rfl (by simp [Event.isUnnumbered]) rfl

/-- A send path leaves the counter alone, and its packet in the trace. -/
theorem Sends.encodes {w w' : World σ} {p : Packet} {r : Except Status Unit}
    (h : Sends p w r w') :
    w'.client.packetId = w.client.packetId ∧ w'.client.onMessage = w.client.onMessage ∧
      ∃ t, w'.trace = t ++ w.trace ∧ .init ∉ t ∧ subscribeIds t = p.subscribeId.toList ∧
        messages t = [] := by
  cases h with
  | encodeFailed => exact ⟨rfl, rfl, [_], rfl, by simp, rfl, rfl⟩
  | refused => exact ⟨rfl, rfl, [_, _], rfl, by simp, rfl, rfl⟩
  | failed => exact ⟨rfl, rfl, [_, _], rfl, by simp, rfl, rfl⟩
  | sent => exact ⟨rfl, rfl, [_, _, _], rfl, by simp, rfl, rfl⟩

/-- A send path for anything but a SUBSCRIBE. -/
theorem Sends.draws {w w' : World σ} {p : Packet} {r : Except Status Unit}
    (h : Sends p w r w') (hp : p.subscribeId = none) : Draws 0 [] w w' := by
  obtain ⟨hid, hon, t, ht, hinit, hids, htold⟩ := h.encodes
  rw [hp] at hids
  exact ⟨hid, hon, t, ht, hinit, hids, htold⟩

/-- **A request draws at most one id.** It draws one exactly if it is an `aemlib_subscribe` with
QoS 0, whatever it reports, and passes that one to the encoder. -/
theorem request_draws {w w' : World σ} {q : Request} {r : Except Status Unit}
    (hs : w.client.Sound) (h : request q w = .ok (r, w')) : Draws q.draws.toNat [] w w' := by
  cases q with
  | connect =>
    have h' : connect w = .ok (r, w') := h
    rw [connect_eq] at h'
    split at h'
    · cases h'
      exact .none [_] rfl rfl rfl (by simp [Event.isUnnumbered]) rfl
    · cases h'
      exact .none [_] rfl rfl rfl (by simp [Event.isUnnumbered]) rfl
  | disconnect =>
    have h' : disconnect w = .ok (r, w') := h
    rw [disconnect_eq] at h'
    split at h'
    · cases h'
      exact .none [] rfl rfl rfl (by simp) rfl
    · cases h'
      exact .none [] rfl rfl rfl (by simp) rfl
  | publish topic payload qos =>
    have h' : publish topic payload qos w = .ok (r, w') := h
    rw [publish_eq] at h'
    split at h'
    · exact (encodeAndSend_sends hs h').draws rfl
    · cases h'
      exact .none [] rfl rfl rfl (by simp) rfl
  | subscribe topic qos =>
    have h' : subscribe topic qos w = .ok (r, w') := h
    rw [subscribe_eq] at h'
    split at h'
    · next hqos =>
      -- drawn before the encoder runs: it counts also if the send is refused
      have hone : (Request.subscribe topic qos).draws.toNat = 1 := by simp [Request.draws, hqos]
      have hsends : Sends (.subscribe (packetIdAfter w.client.packetId) topic)
          ⟨{ w.client with packetId := packetIdAfter w.client.packetId }, w.env, w.trace⟩ r w' :=
        encodeAndSend_sends { hs with } h'
      obtain ⟨hid, hon, t, ht, hinit, hids, htold⟩ := hsends.encodes
      rw [hone]
      exact ⟨hid, hon, t, ht, hinit, hids, htold⟩
    · next hqos =>
      cases h'
      -- a QoS above 0 is refused before the counter moves
      have hzero : (Request.subscribe topic qos).draws.toNat = 0 := by simp [Request.draws, hqos]
      rw [hzero]
      exact .none [] rfl rfl rfl (by simp) rfl

theorem requests_draw {w w' : World σ} {qs : List Request} {r : Except Status Unit}
    (hs : w.client.Sound) (h : Prog.forAll request qs w = .ok (r, w')) :
    Draws (qs.countP Request.draws) [] w w' := by
  induction qs generalizing w with
  | nil =>
    cases h
    exact .refl _
  | cons q qs ih =>
    obtain ⟨r₁, w₁, hfirst, hrest⟩ := Prog.attempt_bind_eq_ok.mp h
    have hdraws := (request_draws hs hfirst).trans (ih (request_refines hs hfirst).1.sound hrest)
    have hcount : (q :: qs).countP Request.draws =
        q.draws.toNat + qs.countP Request.draws := by
      rw [List.countP_cons, Nat.add_comm]
      cases q.draws <;> rfl
    rw [hcount]
    exact hdraws

/-! ## Opening and waiting -/

theorem readClock_draws (w : World σ) : Draws 0 [] w w.readClock.2 := by
  unfold World.readClock
  split
  · exact .refl w
  · exact .none [_] rfl rfl rfl (by simp [Event.isUnnumbered]) rfl

theorem stamped_draws (w : World σ) : Draws 0 [] w w.stamped := by
  have hclock := readClock_draws w
  have hstamp : Draws 0 [] w.readClock.2 w.stamped :=
    .none [] (by rw [readClock_client]; rfl) (by rw [readClock_client]; rfl) rfl (by simp) rfl
  exact hclock.then_none hstamp

theorem dropped_draws (w : World σ) (close : σ → Status × σ) : Draws 0 [] w (w.dropped close) :=
  .none [_] rfl rfl rfl (by simp [Event.isUnnumbered]) rfl

theorem Opens.draws {w w' : World σ} {r : Except Status Unit} (h : Opens w r w') :
    Draws 0 [] w w' := by
  cases h with
  | opened open_ env hf hcall =>
    have hopen : Draws 0 [] w
        ⟨{ w.client with state := .mqttConnectSent }, env, .connect statusOk :: w.trace⟩ :=
      .none [_] rfl rfl rfl (by simp [Event.isUnnumbered]) rfl
    exact hopen.then_none (stamped_draws _)
  | blocked => exact .none [_] rfl rfl rfl (by simp [Event.isUnnumbered]) rfl
  | failed => exact .none [_] rfl rfl rfl (by simp [Event.isUnnumbered]) rfl
  | missing => exact .none [] rfl rfl rfl (by simp) rfl

theorem Waits.draws {w w' : World σ} {close : σ → Status × σ} {res : ReadResult}
    {r : Except Status Unit} (h : Waits w close res r w') : Draws 0 [] w w' := by
  cases h with
  | failed hres => exact dropped_draws w close
  | rejected status w' hres hreject hw' =>
    obtain ⟨c, hc, rfl⟩ := hw'
    rcases hc with rfl | ⟨n, -, rfl⟩
    · exact dropped_draws w close
    · exact .none [_] rfl rfl rfl (by simp [Event.isUnnumbered]) rfl
  | accepted n hres haccept hn =>
    have haccepted : Draws 0 [] w
        ⟨{ w.client.consumed n with state := .mqttConnected }, w.env, w.trace⟩ :=
      .none [] rfl rfl rfl (by simp) rfl
    exact haccepted.then_none (stamped_draws _)
  | timedOut hres hwait hlate => exact (readClock_draws w).then_none (dropped_draws _ close)
  | waiting hres hwait hearly => exact readClock_draws w

theorem afterRead_draws (w : World σ) (res : ReadResult) (env : σ) :
    Draws 0 [] w (w.afterRead res env) :=
  .none [_] rfl rfl rfl (by simp [Event.isUnnumbered]) rfl

theorem corePoll_draws {w w' : World σ} {r : Except Status Unit} (hs : w.client.Sound)
    (h : Core.poll w = .ok (r, w')) : Draws 0 [] w w' := by
  cases corePoll_turn hs h with
  | idle hstate => exact .refl w
  | opens r w' hstate hopens => exact hopens.draws
  | waits r w' close res env hstate hfits hwaits =>
    exact (afterRead_draws w res env).then_none hwaits.draws
  | closes close hstate => exact dropped_draws w close

theorem pollConnectSent_draws {w w' : World σ} {r : Except Status Unit} (hs : w.client.Sound)
    (h : pollConnectSent w = .ok (r, w')) : Draws 0 [] w w' := by
  cases pollConnectSent_introduces hs h with
  | already hsent => exact .refl w
  | failed status w' _ hsends => exact hsends.draws rfl
  | sent w₁ _ hsends =>
    have hset : Draws 0 [] w₁ ⟨{ w₁.client with connectSent := true }, w₁.env, w₁.trace⟩ :=
      .none [] rfl rfl rfl (by simp) rfl
    exact (hsends.draws rfl).then_none hset

/-! ## Reading and pinging -/

/-- A message may be answered with requests, and these may draw. -/
theorem dispatch_answers {w w' : World σ} {header : FixedHeader} {r : Except Status Unit}
    (hs : w.client.Sound) (hparse : parseHeader w.client.held = .ok header)
    (hn : header.packetLen ≤ w.client.rxLen)
    (h : clientDispatchPacket header header.packetLen w = .ok (r, w')) : Answers w w' := by
  rw [clientDispatchPacket_eq hs hparse hn] at h
  split at h
  · cases h
    exact (Draws.refl w).answers
  · next topic payload onMessage _ hf =>
    have htold : Draws 0 [(w.env, topic, payload)] w ⟨w.client, (onMessage w.env topic payload).2,
        .message topic payload :: w.trace⟩ :=
      ⟨rfl, rfl, [_], rfl, by simp, rfl, rfl⟩
    have hdraws := htold.trans (requests_draw hs h)
    refine ⟨[(w.env, topic, payload)], ?_⟩
    have hcount : askedFor w.client.onMessage [(w.env, topic, payload)] =
        0 + (onMessage w.env topic payload).1.countP Request.draws := by
      rw [hf, askedFor, List.flatMap_cons, List.flatMap_nil, List.append_nil, Nat.zero_add]
    rw [hcount]
    exact hdraws
  · cases h
    exact (Draws.refl w).answers

theorem consume_draws {w w' : World σ} {n : Nat} {r : Except Status Unit}
    (hs : w.client.Sound) (h : consume n w = .ok (r, w')) : Draws 0 [] w w' := by
  rw [consume_eq hs] at h
  split at h
  · cases h
    exact .none [] rfl rfl rfl (by simp) rfl
  · cases h

theorem clientReadLoop_answers {w w' : World σ} {fuel : Nat} {r : Except Status Unit}
    (hs : w.client.Sound) (hest : w.link.Established)
    (h : clientReadLoop fuel w = .ok (r, w')) : Answers w w' := by
  induction fuel generalizing w with
  | zero => cases h
  | succ fuel ih =>
    rcases clientReadLoop_turn fuel hs with ⟨r₀, hrun, -⟩ | ⟨header, hparse, -, hn, hrun⟩
    · rw [hrun] at h
      cases h
      exact (Draws.refl w').answers
    · -- a packet is dispatched and consumed, and the loop goes on with what is behind it
      rw [hrun] at h
      rcases Prog.bind_eq_ok.mp h with ⟨e, hdisp, -⟩ | ⟨_, w₁, hdisp, h₁⟩
      · exact dispatch_answers hs hparse hn hdisp
      · have hanswers₁ := dispatch_answers hs hparse hn hdisp
        obtain ⟨href₁, hest₁⟩ := dispatch_refines hs hest hparse hn hdisp
        rcases Prog.bind_eq_ok.mp h₁ with ⟨e, hcons, -⟩ | ⟨_, w₂, hcons, h₂⟩
        · exact hanswers₁.trans (consume_draws href₁.sound hcons).answers
        · have hanswers₂ := hanswers₁.trans (consume_draws href₁.sound hcons).answers
          obtain ⟨href₂, hest₂⟩ := consume_refines href₁.sound hest₁ hcons
          exact hanswers₂.trans (ih href₂.sound hest₂ h₂)

theorem clientRead_answers {w w' : World σ} {r : Except Status Unit} (hs : w.client.Sound)
    (hstate : w.client.state = .mqttConnected) (h : clientRead w = .ok (r, w')) :
    Answers w w' := by
  obtain ⟨res, env, hfits, hread⟩ := clientRead_cases hs hstate h
  rcases hread with ⟨-, -, rfl⟩ | ⟨-, hloop⟩
  · exact (afterRead_draws w res env).answers
  · have hest : (w.afterRead res env).link.Established := Or.inl hstate
    exact (afterRead_draws w res env).answers.trans
      (clientReadLoop_answers (hs.received hfits) hest hloop)

theorem keepalive_draws {w w' : World σ} {r : Except Status Unit} (hs : w.client.Sound)
    (h : keepalive w = .ok (r, w')) : Draws 0 [] w w' := by
  have hclock := readClock_draws w
  cases keepalive_beats hs h with
  | early hearly => exact hclock
  | failed status w' hsends => exact hclock.then_none (hsends.draws rfl)
  | pinged w₁ hdue hsends =>
    have hnoted : Draws 0 [] w₁
        ⟨{ w₁.client with lastActivityMs := w.readClock.1 }, w₁.env, w₁.trace⟩ :=
      .none [] rfl rfl rfl (by simp) rfl
    exact (hclock.then_none (hsends.draws rfl)).then_none hnoted

/-- **A poll draws what the callback asks for.** -/
theorem poll_answers {w w' : World σ} {r : Except Status Unit} (hs : w.client.Sound)
    (h : poll w = .ok (r, w')) : Answers w w' := by
  rcases poll_cases h with ⟨e, hflush, -⟩ | ⟨w₁, hflush, h₁⟩
  · exact (clientFlushPending_flushes hs hflush).draws.answers
  · have hflushes := clientFlushPending_flushes hs hflush
    have hs₁ := (hflushes.refines hs).sound
    rcases h₁ with ⟨e, hcore, -⟩ | ⟨w₂, hcore, h₂⟩
    · exact (hflushes.draws.then_none (corePoll_draws hs₁ hcore)).answers
    · have hdraws := hflushes.draws.then_none (corePoll_draws hs₁ hcore)
      have hs₂ := (corePoll_refines hs₁ hcore).sound
      -- of what the new state calls for, only the reading tells messages
      rcases h₂ with ⟨hstate, h₃⟩ | ⟨hstate, h₃⟩ | ⟨-, -, -, rfl⟩
      · exact (hdraws.then_none (pollConnectSent_draws hs₂ h₃)).answers
      · rcases Prog.bind_eq_ok.mp h₃ with ⟨e, hread, -⟩ | ⟨_, w₃, hread, hkeep⟩
        · exact hdraws.answers.trans (clientRead_answers hs₂ hstate hread)
        · have hs₃ := (clientRead_refines hs₂ hstate hread).1.sound
          exact (hdraws.answers.trans (clientRead_answers hs₂ hstate hread)).trans
            (keepalive_draws hs₃ hkeep).answers
      · exact hdraws.answers

/-! ## Runs -/

theorem run_numbers {w w' : World σ} {calls : List (Call σ)} {r : Except Status Unit}
    (hs : w.client.Sound) (hcalls : ∀ c ∈ calls, c.isInit = false)
    (h : run calls w = .ok (r, w')) : Numbers w w' := by
  refine (Prog.forAll_invariant (P := fun v => v.client.Sound ∧ Numbers w v)
    ⟨hs, (Draws.refl w).numbers⟩ (fun c hc v r v' hv hcall => ?_) h).2
  refine ⟨(call_refines hv.1 hcall).1, hv.2.trans ?_⟩
  cases c with
  | init config => exact absurd (hcalls _ hc) (by simp [Call.isInit])
  | request q => exact (request_draws hv.1 hcall).numbers
  | poll => exact (poll_answers hv.1 hcall).numbers

/-- A fresh client: the counter is at 1 and no id has been drawn. -/
theorem init_numbers {config : Option (Config σ)} {w w' : World σ}
    (h : init config w = .ok (.ok (), w')) :
    w'.client.Sound ∧ w'.client.packetId = 1 ∧ subscribeIds (sinceInit w'.trace) = [] := by
  obtain ⟨r, w'', hrun, hinits⟩ := init_returns config w
  rw [hrun] at h
  cases h
  cases hinits with
  | ok cfg hs =>
    obtain ⟨-, -, t, ht, hinit, hids, -⟩ := stamped_draws ⟨cfg.client, w.env, .init :: w.trace⟩
    refine ⟨{ hs with }, rfl, ?_⟩
    rw [ht, sinceInit_append hinit, sinceInit, List.append_nil]
    exact hids

/-- **The ids of a run.** -/
theorem run_subscribeIds {config : Option (Config σ)} {w₀ w₁ w : World σ} {calls : List (Call σ)}
    {r : Except Status Unit} (hinit : init config w₀ = .ok (.ok (), w₁))
    (hcalls : ∀ c ∈ calls, c.isInit = false) (hrun : run calls w₁ = .ok (r, w)) :
    ∃ n, subscribeIds (sinceInit w.trace) = drawnIds 1 n ∧
      w.client.packetId = packetIdAfterDraws 1 n := by
  obtain ⟨hs, hone, hnone⟩ := init_numbers hinit
  obtain ⟨n, told, hid, -, t, ht, hmem, hids, -⟩ := run_numbers hs hcalls hrun
  rw [hone] at hid hids
  refine ⟨n, ?_, hid⟩
  rw [ht, sinceInit_append hmem, subscribeIds_append, hnone, hids, List.nil_append]

theorem Draws.subscribeIds_eq {n : Nat} {told : List (Telling σ)} {w w' : World σ}
    (h : Draws n told w w') :
    subscribeIds w'.trace = subscribeIds w.trace ++ drawnIds w.client.packetId n := by
  obtain ⟨-, -, t, ht, -, hids, -⟩ := h
  rw [ht, subscribeIds_append, hids]

theorem Draws.messages_eq {n : Nat} {told : List (Telling σ)} {w w' : World σ}
    (h : Draws n told w w') : messages w'.trace = messages w.trace ++ told.map Prod.snd := by
  obtain ⟨-, -, t, ht, -, -, htold⟩ := h
  rw [ht, messages_append, htold]

/-- **Packet identifiers.** After a successful `aemlib_init` and any calls but another one, the ids
of the SUBSCRIBE packets passed to the encoder so far, oldest first, are `2, 3, …, 65535, 1, 2, …`:
the `k`-th is `k % 65535 + 1`. So none of them is 0, any 65535 in a row are different, and the
counter is always in `1..65535`. There is one for each `aemlib_subscribe` with QoS 0, wherever it is
made and whatever it reports, and none for any other request; an `aemlib_poll` adds those of the
requests that the callback makes for the messages it is told in it. -/
theorem packetIds_exact {config : Option (Config σ)} {w₀ w₁ w : World σ} {calls : List (Call σ)}
    (hinit : init config w₀ = .ok (.ok (), w₁)) (hcalls : ∀ c ∈ calls, c.isInit = false)
    (hrun : run calls w₁ = .ok (.ok (), w)) :
    (∀ k id, 1 ≤ k → (subscribeIds (sinceInit w.trace))[k - 1]? = some id →
      id.toNat = k % 65535 + 1 ∧ id ≠ 0) ∧
    (∀ i j a b, i < j → j < i + 65535 → (subscribeIds (sinceInit w.trace))[i]? = some a →
      (subscribeIds (sinceInit w.trace))[j]? = some b → a ≠ b) ∧
    w.client.packetId.toNat = (subscribeIds (sinceInit w.trace)).length % 65535 + 1 ∧
    (1 ≤ w.client.packetId.toNat ∧ w.client.packetId.toNat ≤ 65535) ∧
    (∀ (v : World σ) topic, v.client.Sound →
      (request (.subscribe topic 0)).Returns v fun _ v' =>
        v'.client.packetId = packetIdAfter v.client.packetId ∧
        subscribeIds v'.trace = subscribeIds v.trace ++ [packetIdAfter v.client.packetId]) ∧
    (∀ (v v' : World σ) q r, v.client.Sound → q.draws = false → request q v = .ok (r, v') →
      v'.client.packetId = v.client.packetId ∧ subscribeIds v'.trace = subscribeIds v.trace) ∧
    (∀ (v v' : World σ) r, v.client.Sound → poll v = .ok (r, v') → ∃ told : List (Telling σ),
      messages v'.trace = messages v.trace ++ told.map Prod.snd ∧
      v'.client.packetId =
        packetIdAfterDraws v.client.packetId (askedFor v.client.onMessage told) ∧
      subscribeIds v'.trace = subscribeIds v.trace ++
        drawnIds v.client.packetId (askedFor v.client.onMessage told)) := by
  obtain ⟨n, hids, hid⟩ := run_subscribeIds hinit hcalls hrun
  have hcounter : w.client.packetId.toNat = n % 65535 + 1 := by
    rw [hid, toNat_packetIdAfterDraws]
  rw [hids]
  refine ⟨fun k id hk hget => ?_, fun i j a b hij hnear hi hj => ?_, ?_, ⟨by omega, by omega⟩,
    fun v topic hv => ?_, fun v v' q r hv hq h => ?_, fun v v' r hv h => ?_⟩
  · -- the k-th id drawn is the counter after k draws
    obtain ⟨-, hnat⟩ := getElem?_drawnIds hget
    have hk' : k - 1 + 1 = k := by omega
    rw [hk'] at hnat
    refine ⟨hnat, fun hzero => ?_⟩
    rw [hzero] at hnat
    exact absurd hnat.symm (Nat.succ_ne_zero _)
  · -- two ids fewer than 65535 draws apart differ modulo 65535
    obtain ⟨-, ha⟩ := getElem?_drawnIds hi
    obtain ⟨-, hb⟩ := getElem?_drawnIds hj
    intro hsame
    rw [hsame] at ha
    omega
  · rw [hcounter, drawnIds, List.length_map, List.length_range]
  · obtain ⟨r, v', h, -⟩ := request_returns (q := .subscribe topic 0) hv trivial
    have hdraws : Draws 1 [] v v' := request_draws hv h
    exact ⟨r, v', h, hdraws.packetId, hdraws.subscribeIds_eq⟩
  · have hdraws := request_draws hv h
    rw [hq] at hdraws
    exact ⟨hdraws.packetId, hdraws.subscribeIds_eq.trans (List.append_nil _)⟩
  · obtain ⟨told, hdraws⟩ := poll_answers hv h
    exact ⟨told, hdraws.messages_eq, hdraws.packetId, hdraws.subscribeIds_eq⟩

/-- Two subscriptions on a client that is not connected, into a buffer that holds one of them: the
first is taken by the transport, the second is too long. -/
theorem packetIds_exact_two :
    ∃ w : World Script,
      subscribeIds (sinceInit w.trace) = [2, 3] ∧ w.client.packetId.toNat = 3 := by
  obtain ⟨_, w₁, hinit, rfl, _, w, hrun, rfl, hids⟩ :
      (init (some (Script.config 12 12 0 none))).Returns
        ⟨Client.zero Script, ⟨[], [], [], []⟩, []⟩ fun r w₁ => r = .ok () ∧
          (run [.request (.subscribe ⟨[0x61], Nat.one_lt_two_pow (by decide)⟩ 0), .poll,
            .request (.subscribe ⟨[0x61, 0x62, 0x63], by decide⟩ 0)]).Returns w₁ fun r w =>
              r = .ok () ∧ subscribeIds (sinceInit w.trace) = [2, 3] := by
    decide +kernel
  obtain ⟨-, -, hcounter, -⟩ := packetIds_exact hinit (by decide) hrun
  rw [hids] at hcounter
  exact ⟨w, hids, hcounter⟩

end Aemlib
