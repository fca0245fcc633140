import Aemlib.Behaviour.Reading
import Aemlib.Environment

/-!
# The inbound stream, on any bytes

What the message callback has been told on a connection, and what is kept in `rx_buffer`, are
accounted for by the bytes the transport has brought on that connection: they are whole packets,
an accepting CONNACK first, and then the bytes held. This is so whatever the bytes are, whatever
errors were reported on the way, and however often the client has connected before. The one thing
that breaks it is `aemlib_connect` on a connection that stands, which empties `rx_buffer`.

The result is about interleaved runs, so it can be used with a peer that moves between the calls.
-/

namespace Aemlib

open Machine Proto Prog

variable {σ : Type}

/-! ## Events that open nothing -/

def Event.opens : Event → Bool
  | .init => true
  | .connect status => status = statusOk
  | _ => false

theorem sinceOpen_append {t past : List Event} (h : ∀ e ∈ t, e.opens = false) :
    sinceOpen (t ++ past) = t ++ sinceOpen past := by
  induction t with
  | nil => rfl
  | cons e t ih =>
    have htail := ih fun e' he' => h e' (List.mem_cons_of_mem e he')
    have hhead := h e List.mem_cons_self
    cases e with
    | init => cases hhead
    | connect status =>
      rw [List.cons_append, sinceOpen_connect (of_decide_eq_false hhead), htail, List.cons_append]
    | _ => exact congrArg (List.cons _) htail

/-- `t` adds to `past` no event that opens anything. -/
def Unopened (past : List Event) (_ : σ) (t : List Event) : Prop :=
  ∃ new, t = new ++ past ∧ ∀ e ∈ new, e.opens = false

theorem Unopened.cons {past t : List Event} {env env' : σ} {e : Event} (he : e.opens = false)
    (h : Unopened past env t) : Unopened past env' (e :: t) := by
  obtain ⟨new, rfl, hnew⟩ := h
  refine ⟨e :: new, rfl, ?_⟩
  intro e' he'
  rcases List.mem_cons.mp he' with rfl | he'
  · exact he
  · exact hnew e' he'

/-- Only the transport's connect opens. -/
theorem unopened_keeps (s : Setup σ) (past : List Event) : s.Keeps (Unopened past) where
  mark e he env t h := by
    refine h.cons ?_
    cases e with
    | init => cases he
    | connect status => cases he
    | _ => rfl
  disconnect f hf env t h := h.cons rfl
  read f hf env t len h := h.cons rfl
  write f hf env t data h := h.cons rfl
  now f hf env t h := h.cons rfl
  message f hf env t topic payload h := h.cons rfl

theorem attached_unopened (w : World σ) : Attached w.client.setup (Unopened w.trace) w :=
  ⟨rfl, [], rfl, fun _ he => nomatch he⟩

/-! ## The account -/

/-- No `aemlib_connect` was called since the transport connected. -/
def Undisturbed (t : List Event) : Prop := ∀ e ∈ sinceOpen t, e.isConnectCall = false

instance (t : List Event) : Decidable (Undisturbed t) :=
  inferInstanceAs (Decidable (∀ e ∈ sinceOpen t, e.isConnectCall = false))

/-- The bytes that have come are `packets` and `rest`, and the callback was told their messages. -/
structure Taken (size : Nat) (t : List Event) (packets : List (List UInt8)) (rest : List UInt8) :
    Prop where
  bytes : inbound t = packets.flatten ++ rest
  told : messages t = packets.filterMap messageOf
  framed : ∀ p ∈ packets, WellFormed size p

/-- A packet that the CONNACK wait accepts, with nothing behind it. -/
def Accepting (size : Nat) (packet : List UInt8) : Prop :=
  connackVerdict size packet = .accept packet.length

/-- Where the account stands, state by state. A client that is `CONNECTING` holds nothing. -/
def World.Intake (w : World σ) : Prop :=
  match w.client.state with
  | .connecting => w.client.held = [] ∧ ¬ Undisturbed w.trace
  | .disconnected => Undisturbed w.trace →
      ∃ packets rest, Taken w.client.rxBufferSize (sinceOpen w.trace) packets rest
  | .mqttConnectSent => Undisturbed w.trace →
      Taken w.client.rxBufferSize (sinceOpen w.trace) [] w.client.held
  | .mqttConnected | .mqttDisconnecting => Undisturbed w.trace →
      ∃ connack packets,
        Taken w.client.rxBufferSize (sinceOpen w.trace) (connack :: packets) w.client.held ∧
        Accepting w.client.rxBufferSize connack

/-- More events, none of which is read from the transport or told to the callback. -/
theorem Taken.aside {size : Nat} {t : List Event} {packets : List (List UInt8)}
    {rest : List UInt8} (h : Taken size t packets rest) (new : List Event) (hin : inbound new = [])
    (hmsg : messages new = []) : Taken size (new ++ t) packets rest where
  bytes := by rw [inbound_append, hin, List.append_nil, h.bytes]
  told := by rw [messages_append, hmsg, List.append_nil, h.told]
  framed := h.framed

theorem Undisturbed.of_append {new past : List Event} (hopen : ∀ e ∈ new, e.opens = false)
    (h : Undisturbed (new ++ past)) : Undisturbed past := by
  intro e he
  apply h e
  rw [sinceOpen_append hopen]
  exact List.mem_append_right new he

/-- Code that goes on in the same state, keeps the bytes held and hears nothing. -/
theorem Aside.intake {w w' : World σ} (h : Aside w w') (hsetup : w'.client.setup = w.client.setup)
    (hopen : Unopened w.trace w'.env w'.trace) (hw : w.Intake) : w'.Intake := by
  have hsize : w'.client.rxBufferSize = w.client.rxBufferSize :=
    congrArg Setup.rxBufferSize hsetup
  obtain ⟨new, hnew, hin, hmsg⟩ := h.trace
  obtain ⟨new', hnew', hopens⟩ := hopen
  rw [hnew] at hnew'
  rw [← List.append_cancel_right hnew'] at hopens
  have hpast : Undisturbed w'.trace → Undisturbed w.trace := by
    rw [hnew]
    exact Undisturbed.of_append hopens
  have hsince : sinceOpen w'.trace = new ++ sinceOpen w.trace := by
    rw [hnew, sinceOpen_append hopens]
  unfold World.Intake at hw ⊢
  rw [h.state, h.held, hsize, hsince]
  -- the same account state by state, with the new events put on top of it
  cases hstate : w.client.state with
  | disconnected =>
    rw [hstate] at hw
    intro hund
    obtain ⟨packets, rest, htaken⟩ := hw (hpast hund)
    exact ⟨packets, rest, htaken.aside new hin hmsg⟩
  | connecting =>
    rw [hstate] at hw
    exact ⟨hw.1, mt hpast hw.2⟩
  | mqttConnectSent =>
    rw [hstate] at hw
    intro hund
    exact (hw (hpast hund)).aside new hin hmsg
  | mqttConnected =>
    rw [hstate] at hw
    intro hund
    obtain ⟨connack, packets, htaken, hacc⟩ := hw (hpast hund)
    exact ⟨connack, packets, htaken.aside new hin hmsg, hacc⟩
  | mqttDisconnecting =>
    rw [hstate] at hw
    intro hund
    obtain ⟨connack, packets, htaken, hacc⟩ := hw (hpast hund)
    exact ⟨connack, packets, htaken.aside new hin hmsg, hacc⟩

/-! ## The CONNACK wait -/

theorem Taken.read {size : Nat} {t : List Event} {packets : List (List UInt8)}
    {rest : List UInt8} (h : Taken size t packets rest) (len : Nat) (res : ReadResult) :
    Taken size (.read len res :: t) packets (rest ++ res.taken) where
  bytes := by rw [inbound, h.bytes, List.append_assoc]
  told := h.told
  framed := h.framed

theorem Undisturbed.of_cons {e : Event} {t : List Event} (he : e.opens = false)
    (h : Undisturbed (e :: t)) : Undisturbed t :=
  Undisturbed.of_append (fun e' he' => by rw [List.mem_singleton.mp he']; exact he)
    (show Undisturbed ([e] ++ t) from h)

/-- The packet that the wait accepts, cut off from what is behind it. -/
theorem accepting_take {size n : Nat} {held : List UInt8}
    (h : connackVerdict size held = .accept n) :
    Accepting size (held.take n) ∧ WellFormed size (held.take n) ∧
      messageOf (held.take n) = none := by
  obtain ⟨header, hparse, htype, rfl, hsize, hlen, h4, h3⟩ := connackVerdict_eq_accept.mp h
  have hbounds := parseHeader_bounds hparse
  have hpacket := packetLen_eq hparse
  have hcut : (held.take header.packetLen).length = header.packetLen := by
    rw [List.length_take, Nat.min_eq_left hlen]
  have hheader := parseHeader_take hparse (show header.headerSize ≤ header.packetLen by omega)
  have hmsg : packetMessage header (held.take header.packetLen) = .ok none := by
    unfold packetMessage
    rw [htype]
  refine ⟨?_, wellFormed_front hparse hlen hsize hmsg⟩
  -- the verdict looks at nothing behind the packet
  refine connackVerdict_eq_accept.mpr ⟨header, hheader, htype, hcut.symm, by omega, Nat.le_refl _,
    by omega, ?_⟩
  rw [List.getD_eq_getElem?_getD, List.getElem?_take_of_lt (by omega),
    ← List.getD_eq_getElem?_getD]
  exact h3

/-- A client that gives up while it waits has told the callback nothing. -/
theorem intake_dropped {w : World σ} {c : Client σ} {close : σ → Status × σ} {held : List UInt8}
    (hw : Undisturbed w.trace → Taken w.client.rxBufferSize (sinceOpen w.trace) [] held)
    (hsize : c.rxBufferSize = w.client.rxBufferSize) :
    (World.dropped ⟨c, w.env, w.trace⟩ close).Intake := by
  intro hund
  refine ⟨[], held, ?_⟩
  have htaken := (hw (hund.of_cons rfl)).aside [.disconnect (close w.env).1] rfl rfl
  rw [← hsize] at htaken
  exact htaken

/-- The wait, behind its read: it gives up, goes on, or hands the bytes behind the CONNACK over. -/
theorem Waits.intake {w w' : World σ} {close : σ → Status × σ} {res : ReadResult}
    {r : Except Status Unit} (hs : w.client.Sound) (hstate : w.client.state = .mqttConnectSent)
    (hw : Undisturbed w.trace →
      Taken w.client.rxBufferSize (sinceOpen w.trace) [] w.client.held)
    (h : Waits w close res r w') : w'.Intake := by
  have hclock := readClock_aside w
  have hopen : Unopened w.trace w.readClock.2.env w.readClock.2.trace :=
    (timeNow_keeps (unopened_keeps w.client.setup w.trace) w (attached_unopened w) _ _
      (timeNow_eq w)).2
  have hwait : w.Intake := by
    unfold World.Intake
    rw [hstate]
    exact hw
  have hlater : w.readClock.2.Intake := hclock.intake (by rw [readClock_client]) hopen hwait
  cases h with
  -- each way to give up: nothing was told, and what has come is the rest
  | failed hres => exact intake_dropped hw rfl
  | rejected status w' hres hv hrej =>
    obtain ⟨c, hc, rfl⟩ := hrej
    refine intake_dropped hw ?_
    rcases hc with rfl | ⟨n, -, rfl⟩
    · rfl
    · rfl
  | timedOut hres hv hlate =>
    unfold World.Intake at hlater
    rw [readClock_client, hstate] at hlater
    have hsize : w.readClock.2.client.rxBufferSize = w.client.rxBufferSize := by
      rw [readClock_client]
    rw [← hsize] at hlater
    exact intake_dropped hlater rfl
  | waiting hres hv hearly => exact hlater
  | accepted n hres hv hn =>
    obtain ⟨haccepting, hgood, hnone⟩ := accepting_take hv
    have hstamp := stamped_aside
      ⟨{ w.client.consumed n with state := .mqttConnected }, w.env, w.trace⟩
    refine hstamp.intake rfl (stamp_keeps (unopened_keeps w.client.setup w.trace)
      ⟨{ w.client.consumed n with state := .mqttConnected }, w.env, w.trace⟩
      (attached_unopened w) _ _ (stamp_eq _)).2 ?_
    intro hund
    -- the CONNACK is the first packet, and what is held behind it the rest
    obtain ⟨hbytes, htold, -⟩ := hw hund
    refine ⟨w.client.held.take n, [], ⟨?_, ?_, ?_⟩, haccepting⟩
    · show inbound (sinceOpen w.trace) = _ ++ (w.client.consumed n).held
      rw [hbytes, hs.held_consumed, List.flatten_nil, List.nil_append, List.flatten_cons,
        List.flatten_nil, List.append_nil, List.take_append_drop]
    · rw [List.filterMap_cons_none hnone]
      exact htold
    · intro p hp
      rw [List.mem_singleton.mp hp]
      exact hgood

/-! ## An established connection -/

/-- `client_read` of a connected client: the packets it takes off follow those before. -/
theorem clientRead_intake {w w' : World σ} {r : Except Status Unit} {f : MessageFn σ}
    (hs : w.client.Sound) (hstate : w.client.state = .mqttConnected)
    (hf : w.client.onMessage = some f) (hgentle : f.Gentle) (hw : w.Intake)
    (h : clientRead w = .ok (r, w')) : w'.Intake := by
  have hkeeps := clientRead_keeps (unopened_keeps w.client.setup w.trace) w (attached_unopened w)
    _ _ h
  have hest := (clientRead_refines hs hstate h).2
  obtain ⟨res, env, hfits, hcase⟩ := clientRead_cases hs hstate h
  have hs₁ : (w.afterRead res env).client.Sound := hs.received hfits
  have hon : ∀ g, (w.afterRead res env).client.onMessage = some g → g.Gentle := by
    intro g hg
    cases hf.symm.trans hg
    exact hgentle
  -- what the loop takes off what is held after the read; nothing if the read failed
  obtain ⟨packets, hoff⟩ : ∃ packets, TakesOff packets (w.afterRead res env) r w' := by
    rcases hcase with ⟨-, rfl, rfl⟩ | ⟨-, hloop⟩
    · exact ⟨[], takesOff_nil hs₁ fun h => nomatch h⟩
    · obtain ⟨packets, r', w'', hloop', hoff⟩ :=
        clientReadLoop_takesOff hs₁ hon (Nat.lt_succ_self _)
      rw [hloop] at hloop'
      cases hloop'
      exact ⟨packets, hoff⟩
  have hsize : w'.client.rxBufferSize = w.client.rxBufferSize :=
    congrArg Setup.rxBufferSize hkeeps.1
  obtain ⟨t, ht, hin, hmsgs⟩ := hoff.trace
  obtain ⟨new, hnew, hopens⟩ := hkeeps.2
  have hcut : new = t ++ [.read (w.client.rxBufferSize - w.client.rxLen) res] := by
    rw [← List.append_left_inj w.trace, ← hnew, ht, List.append_assoc]
    rfl
  have hnext : Undisturbed w'.trace → ∃ connack packets,
      Taken w'.client.rxBufferSize (sinceOpen w'.trace) (connack :: packets) w'.client.held ∧
        Accepting w'.client.rxBufferSize connack := by
    intro hund
    rw [hnew] at hund
    unfold World.Intake at hw
    rw [hstate] at hw
    obtain ⟨connack, before, htaken, haccepting⟩ := hw (hund.of_append hopens)
    have hread := htaken.read (w.client.rxBufferSize - w.client.rxLen) res
    have hheld := hoff.bytes
    rw [show (w.afterRead res env).client.held = w.client.held ++ res.taken from
      hs.held_received res] at hheld
    rw [hnew, sinceOpen_append hopens, hcut, List.append_assoc, List.singleton_append, hsize]
    refine ⟨connack, before ++ packets, ⟨?_, ?_, ?_⟩, haccepting⟩
    · rw [inbound_append, hin, List.append_nil, hread.bytes, hheld, ← List.cons_append,
        List.flatten_append, List.append_assoc]
    · rw [messages_append, hmsgs (by show w.client.onMessage.isSome = true; rw [hf]; rfl),
        hread.told, ← List.filterMap_append, List.cons_append]
    · intro p hp
      rw [← List.cons_append] at hp
      rcases List.mem_append.mp hp with hp | hp
      · exact hread.framed p hp
      · exact hoff.framed p hp
  unfold World.Intake
  rcases hest with hc | hd
  · rw [show w'.client.state = .mqttConnected from hc]
    exact hnext
  · rw [show w'.client.state = .mqttDisconnecting from hd]
    exact hnext

/-! ## Every move -/

theorem request_intake {w w' : World σ} {q : Request} {r : Except Status Unit}
    (hs : w.client.Sound) (hw : w.Intake) (h : request q w = .ok (r, w')) : w'.Intake := by
  have hkeeps := request_keeps (unopened_keeps w.client.setup w.trace) q w (attached_unopened w)
    _ _ h
  cases q with
  | connect =>
    have hconnect : connect w = .ok (r, w') := h
    rw [connect_eq] at hconnect
    have hdisturbed : ∀ s n, ¬ Undisturbed (.connectCall s n :: w.trace) := fun s n hund =>
      Bool.noConfusion (hund (.connectCall s n) List.mem_cons_self)
    split at hconnect
    · cases hconnect
      exact ⟨rfl, hdisturbed _ _⟩
    · next hstate =>
      -- refused: there is no account any more, but for a client that is already connecting
      cases hconnect
      unfold World.Intake
      cases hcase : w.client.state with
      | disconnected => exact absurd hcase hstate
      | connecting => exact ⟨rfl, hdisturbed _ _⟩
      | _ => exact fun hund => absurd hund (hdisturbed _ _)
  | disconnect =>
    have hdisconnect : disconnect w = .ok (r, w') := h
    rw [disconnect_eq] at hdisconnect
    split at hdisconnect
    · next hstate =>
      cases hdisconnect
      unfold World.Intake at hw
      rw [hstate] at hw
      exact hw
    · cases hdisconnect
      exact hw
  | publish topic payload qos => exact (request_aside hs rfl h).intake hkeeps.1 hkeeps.2 hw
  | subscribe topic qos => exact (request_aside hs rfl h).intake hkeeps.1 hkeeps.2 hw

theorem corePoll_intake {w w' : World σ} {r : Except Status Unit} (hs : w.client.Sound)
    (hw : w.Intake) (h : Core.poll w = .ok (r, w')) : w'.Intake := by
  cases corePoll_turn hs h with
  | idle hidle => exact hw
  | closes close hstate =>
    intro hund
    unfold World.Intake at hw
    rw [hstate] at hw
    obtain ⟨connack, packets, htaken, -⟩ := hw (hund.of_cons rfl)
    exact ⟨_, _, htaken.aside [.disconnect (close w.env).1] rfl rfl⟩
  | waits _ _ close res env hstate hfits hwaits =>
    refine hwaits.intake (w := w.afterRead res env) (hs.received hfits) hstate fun hund => ?_
    unfold World.Intake at hw
    rw [hstate] at hw
    rw [show (w.afterRead res env).client.held = w.client.held ++ res.taken from
      hs.held_received res]
    exact (hw (hund.of_cons rfl)).read _ res
  | opens _ _ hstate hopens =>
    unfold World.Intake at hw
    rw [hstate] at hw
    obtain ⟨hheld, hdisturbed⟩ := hw
    have hfailed : ∀ status : Status, status ≠ statusOk →
        ¬ Undisturbed (.connect status :: w.trace) := fun status hne hund =>
      hdisturbed (hund.of_cons (e := .connect status) (decide_eq_false hne))
    cases hopens with
    | opened open_ env hf hcall =>
      -- the transport is connected: the account begins here, with nothing held
      have hstamp := stamped_aside
        ⟨{ w.client with state := .mqttConnectSent }, env, .connect statusOk :: w.trace⟩
      refine hstamp.intake rfl (stamp_keeps
        (unopened_keeps w.client.setup (.connect statusOk :: w.trace))
        ⟨{ w.client with state := .mqttConnectSent }, env, .connect statusOk :: w.trace⟩
        ⟨rfl, [], rfl, fun _ he => nomatch he⟩ _ _ (stamp_eq _)).2 ?_
      intro hund
      have hsince : sinceOpen (.connect statusOk :: w.trace) = [] := if_pos rfl
      refine ⟨?_, ?_, fun _ hp => nomatch hp⟩
      · show inbound (sinceOpen (.connect statusOk :: w.trace)) = _ ++ w.client.held
        rw [hsince, hheld]
        rfl
      · rw [hsince]
        rfl
    | blocked open_ status env hf hcall hst =>
      unfold World.Intake
      rw [show (⟨w.client, env, .connect status :: w.trace⟩ : World σ).client.state =
        .connecting from hstate]
      exact ⟨hheld, hfailed status hst.ne_ok⟩
    | failed open_ status env hf hcall hst =>
      exact fun hund => absurd hund (hfailed status hst.1)
    | missing hf => exact fun hund => absurd hund hdisturbed

theorem poll_intake {w w' : World σ} {r : Except Status Unit} {f : MessageFn σ}
    (hs : w.client.Sound) (hf : w.client.onMessage = some f) (hgentle : f.Gentle) (hw : w.Intake)
    (h : poll w = .ok (r, w')) : w'.Intake := by
  -- no part of a poll but the handler of `CONNECTING` opens anything
  have hkept : ∀ {p : Api σ Unit} {v v' : World σ} {r : Except Status Unit},
      (∀ past, Keeps (Attached v.client.setup (Unopened past)) p) → p v = .ok (r, v') →
      v'.client.setup = v.client.setup ∧ Unopened v.trace v'.env v'.trace :=
    fun hp hrun => hp _ _ (attached_unopened _) _ _ hrun
  rcases poll_cases h with ⟨e, hflush, -⟩ | ⟨w₁, hflush, h₁⟩
  · have hkeep := hkept (fun past => clientFlushPending_keeps (unopened_keeps _ past)) hflush
    exact (clientFlushPending_flushes hs hflush).aside.intake hkeep.1 hkeep.2 hw
  · have hkeep := hkept (fun past => clientFlushPending_keeps (unopened_keeps _ past)) hflush
    have hflushes := clientFlushPending_flushes hs hflush
    have hw₁ : w₁.Intake := hflushes.aside.intake hkeep.1 hkeep.2 hw
    have hs₁ : w₁.client.Sound := (hflushes.refines hs).sound
    rcases h₁ with ⟨e, hcore, -⟩ | ⟨w₂, hcore, hrest⟩
    · exact corePoll_intake hs₁ hw₁ hcore
    · have hw₂ : w₂.Intake := corePoll_intake hs₁ hw₁ hcore
      have href := corePoll_refines hs₁ hcore
      have hs₂ : w₂.client.Sound := href.sound
      rcases hrest with ⟨-, hsend⟩ | ⟨hstate, hread⟩ | ⟨-, -, -, rfl⟩
      · have hkeep₂ := hkept (fun past => pollConnectSent_keeps (unopened_keeps _ past)) hsend
        exact (pollConnectSent_aside hs₂ hsend).intake hkeep₂.1 hkeep₂.2 hw₂
      · have hon : w₂.client.onMessage = some f := by
          rw [← hf]
          exact congrArg Setup.onMessage (href.setup.trans hkeep.1)
        rcases bind_eq_ok.mp hread with ⟨e, hread, -⟩ | ⟨_, w₃, hread, hbeat⟩
        · exact clientRead_intake hs₂ hstate hon hgentle hw₂ hread
        · have hw₃ := clientRead_intake hs₂ hstate hon hgentle hw₂ hread
          have hs₃ := (clientRead_refines hs₂ hstate hread).1.sound
          have hkeep₃ := hkept (fun past => keepalive_keeps (unopened_keeps _ past)) hbeat
          exact (keepalive_aside hs₃ hbeat).intake hkeep₃.1 hkeep₃.2 hw₃
      · exact hw₂

/-- One move of an interleaved run. -/
theorem move_intake {w w' : World σ} {m : Move σ} {r : Except Status Unit} {f : MessageFn σ}
    (hs : w.client.Sound) (hf : w.client.onMessage = some f) (hgentle : f.Gentle)
    (hm : m.isInit = false) (hw : w.Intake) (h : move m w = .ok (r, w')) : w'.Intake := by
  cases m with
  | env p =>
    obtain ⟨env, -, rfl⟩ := onEnv_eq_ok.mp h
    exact hw
  | call c =>
    cases c with
    | init config => cases hm
    | request q => exact request_intake hs hw h
    | poll => exact poll_intake hs hf hgentle hw h

/-- A client that `aemlib_init` has just set up has heard nothing. -/
theorem init_intake {config : Option (Config σ)} {w₀ w₁ : World σ}
    (h : init config w₀ = .ok (.ok (), w₁)) : w₁.client.Sound ∧ w₁.Intake := by
  have hI := unopened_keeps w₁.client.setup (.init :: w₀.trace)
  obtain ⟨hs, -, new, hnew, hopens⟩ := init_attached hI h rfl ⟨[], rfl, fun _ he => nomatch he⟩
  cases init_inits h with
  | ok cfg hcfg =>
    refine ⟨hs, ?_⟩
    have hstamp := stamped_aside ⟨cfg.client, w₀.env, .init :: w₀.trace⟩
    refine hstamp.intake rfl ⟨new, hnew, hopens⟩ ?_
    exact fun _ => ⟨[], [], rfl, rfl, fun _ hp => nomatch hp⟩

theorem play_intake {w w' : World σ} {moves : List (Move σ)} {r : Except Status Unit}
    {f : MessageFn σ} (hs : w.client.Sound) (hf : w.client.onMessage = some f)
    (hgentle : f.Gentle) (hmoves : ∀ m ∈ moves, m.isInit = false) (hw : w.Intake)
    (h : play moves w = .ok (r, w')) : w'.Intake := by
  refine (Prog.forAll_invariant (P := fun v => Refines w v ∧ v.Intake) ⟨.refl hs, hw⟩
    (fun m hm v r v' hv hmove => ?_) h).2
  have hon : v.client.onMessage = some f := by
    rw [← hf]
    exact congrArg Setup.onMessage hv.1.setup
  refine ⟨hv.1.trans (move_refines hv.1.sound (hmoves m hm) hmove), ?_⟩
  exact move_intake hv.1.sound hon hgentle (hmoves m hm) hv.2 hmove

/-- The account, whatever the state. -/
theorem World.Intake.taken {w : World σ} (hw : w.Intake) (hund : Undisturbed w.trace) :
    ∃ packets rest, Taken w.client.rxBufferSize (sinceOpen w.trace) packets rest ∧
      (w.client.state ≠ .disconnected → rest = w.client.held) ∧
      (w.client.state = .mqttConnectSent → packets = []) ∧
      (w.link.Established → ∃ connack behind, packets = connack :: behind ∧
        Accepting w.client.rxBufferSize connack) := by
  -- in the other states no connection stands
  have hnot : ∀ {s : State}, w.client.state = s → s ≠ .mqttConnected → s ≠ .mqttDisconnecting →
      ¬ w.link.Established := by
    intro s hstate hne hne' hest
    rcases hest with hc | hd
    · exact hne (hstate.symm.trans hc)
    · exact hne' (hstate.symm.trans hd)
  unfold World.Intake at hw
  cases hstate : w.client.state with
  | disconnected =>
    rw [hstate] at hw
    obtain ⟨packets, rest, htaken⟩ := hw hund
    exact ⟨packets, rest, htaken, fun h => absurd rfl h, (fun h => nomatch h),
      fun h => absurd h (hnot hstate (by decide) (by decide))⟩
  | connecting =>
    rw [hstate] at hw
    exact absurd hund hw.2
  | mqttConnectSent =>
    rw [hstate] at hw
    exact ⟨[], _, hw hund, fun _ => rfl, fun _ => rfl,
      fun h => absurd h (hnot hstate (by decide) (by decide))⟩
  | mqttConnected =>
    rw [hstate] at hw
    obtain ⟨connack, packets, htaken, hacc⟩ := hw hund
    exact ⟨connack :: packets, _, htaken, fun _ => rfl, (fun h => nomatch h),
      fun _ => ⟨connack, packets, rfl, hacc⟩⟩
  | mqttDisconnecting =>
    rw [hstate] at hw
    obtain ⟨connack, packets, htaken, hacc⟩ := hw hund
    exact ⟨connack :: packets, _, htaken, fun _ => rfl, (fun h => nomatch h),
      fun _ => ⟨connack, packets, rfl, hacc⟩⟩

/-- **Inbound stream integrity.** After any calls, interleaved with anything the environment does,
with a callback that does not call `aemlib_connect`: as long as `aemlib_connect` was not called
since the transport last connected, the bytes that have come since are whole packets that the
decoders accept, and a rest; the callback was told the messages of these packets, in order and once
each, and nothing else; unless the client is `DISCONNECTED`, the rest is what `rx_buffer` holds.
Nothing is told before the CONNACK, and the first packet of an established connection is one that
accepts it. -/
theorem inbound_intact {config : Option (Config σ)} {w₀ w₁ w : World σ} {moves : List (Move σ)}
    {f : MessageFn σ} (hinit : init config w₀ = .ok (.ok (), w₁))
    (hf : w₁.client.onMessage = some f) (hgentle : f.Gentle)
    (hmoves : ∀ m ∈ moves, m.isInit = false) (hplay : play moves w₁ = .ok (.ok (), w))
    (hund : Undisturbed w.trace) :
    ∃ packets rest, inbound (sinceOpen w.trace) = packets.flatten ++ rest ∧
      messages (sinceOpen w.trace) = packets.filterMap messageOf ∧
      (∀ p ∈ packets, WellFormed w.client.rxBufferSize p) ∧
      (w.client.state ≠ .disconnected → rest = w.client.held) ∧
      (w.client.state = .mqttConnectSent → packets = []) ∧
      (w.link.Established → ∃ connack behind, packets = connack :: behind ∧
        Accepting w.client.rxBufferSize connack) := by
  obtain ⟨hs, hstart⟩ := init_intake hinit
  have hw := play_intake hs hf hgentle hmoves hstart hplay
  obtain ⟨packets, rest, htaken, hheld, hwaiting, hest⟩ := hw.taken hund
  exact ⟨packets, rest, htaken.bytes, htaken.told, htaken.framed, hheld, hwaiting, hest⟩

def Script.brings (data : List UInt8) : Move Script :=
  .env (modify fun s => { s with reads := [⟨statusOk, data⟩] })

/-- A CONNACK, a message and the beginning of another come between two polls. -/
theorem inbound_intact_moved :
    ∃ (w : World Script) (packets : List (List UInt8)), w.client.state = .mqttConnected ∧
      messages (sinceOpen w.trace) = [([0x61], [1])] ∧
      packets.filterMap messageOf = [([0x61], [1])] ∧
      inbound (sinceOpen w.trace) = packets.flatten ++ [0x30, 5] := by
  obtain ⟨w₁, w, hinit, hsetup, hplay, hstate, hund, hheld, hmsgs⟩ := exists_played
    (P := fun w => w.client.state = .mqttConnected ∧ Undisturbed w.trace ∧
      w.client.held = [0x30, 5] ∧ messages (sinceOpen w.trace) = [([0x61], [1])])
    (Script.config 16 16 60000 (some Script.listen)) ⟨[], [], [], []⟩
    [.call (.request .connect), .call .poll,
      Script.brings [0x20, 2, 0, 0, 0x30, 4, 0, 1, 0x61, 1, 0x30, 5], .call .poll]
    (by decide +kernel)
  obtain ⟨packets, rest, hbytes, htold, -, hrest, -⟩ := inbound_intact hinit
    (congrArg Setup.onMessage hsetup) (MessageFn.Quiet.gentle fun _ _ _ => rfl)
    (by simp [Move.isInit, Call.isInit, Script.brings]) hplay hund
  refine ⟨w, packets, hstate, hmsgs, htold.symm.trans hmsgs, ?_⟩
  rw [hbytes, hrest (by rw [hstate]; decide), hheld]

end Aemlib
