import Aemlib.Outcome

/-!
# The code refines the link

Every call of the API, from a sound client and as long as it does not fault, keeps the client
sound, leaves the setup alone, and is a sequence of `Link.Step`s. The main results are
`request_refines`, `poll_refines` and `init_refines`.
-/

namespace Aemlib

open Machine Proto

variable {σ : Type}

/-- What a piece of code that keeps to the link leaves behind. -/
structure Refines (w w' : World σ) : Prop where
  sound : w'.client.Sound
  setup : w'.client.setup = w.client.setup
  steps : Link.Steps w.link w'.link

theorem Refines.refl {w : World σ} (hs : w.client.Sound) : Refines w w := ⟨hs, rfl, .refl⟩

theorem Refines.trans {w₁ w₂ w₃ : World σ} (h₁ : Refines w₁ w₂) (h₂ : Refines w₂ w₃) :
    Refines w₁ w₃ :=
  ⟨h₂.sound, h₂.setup.trans h₁.setup, h₁.steps.trans h₂.steps⟩

/-! ## Sending -/

theorem Client.Sound.staged_ne_nil {c : Client σ} (h : c.Sound) (hpos : 0 < c.txPendingLen) :
    c.staged ≠ [] := by
  intro hnil
  have := h.length_staged
  rw [hnil, List.length_nil] at this
  omega

theorem Client.staged_eq_nil {c : Client σ} (hzero : c.txPendingLen = 0) : c.staged = [] := by
  rw [Client.staged, hzero, List.take_zero]

theorem Flushes.refines {w w' : World σ} {r : Except Status Unit} (hs : w.client.Sound)
    (h : Flushes w r w') : Refines w w' := by
  cases h with
  | idle hzero => exact .refl hs
  | failed write res env hpos hf hcall hres =>
    exact ⟨hs, rfl, .single (Link.Step.flushFailed w.link res (hs.staged_ne_nil hpos) hres)⟩
  | flushed write res env hpos hf hcall hres hle =>
    refine ⟨hs.unstage _, rfl, ?_⟩
    have hstep := Link.Step.flushed w.link res (hs.staged_ne_nil hpos) hres
      (by show _ ≤ w.client.staged.length; rw [hs.length_staged]; exact hle)
    have hlink : (⟨w.client.unstage res.written, env,
        .write w.client.staged res :: w.trace⟩ : World σ).link =
        { w.link with
          staged := w.link.staged.drop res.written
          trace := .write w.link.staged res :: w.link.trace } := by
      simp only [World.link, hs.staged_unstage]
      rfl
    rw [hlink]
    exact .single hstep

/-- A flush changes `tx_buffer` and the staged length, and nothing else in the client. -/
theorem Flushes.client_eq {w w' : World σ} {r : Except Status Unit} (h : Flushes w r w') :
    w'.client = { w.client with
      txBuffer := w'.client.txBuffer, txPendingLen := w'.client.txPendingLen } := by
  cases h <;> rfl

/-- A send path changes `tx_buffer` and the staged length, and nothing else in the client. -/
theorem Sends.client_eq {w w' : World σ} {p : Packet} {r : Except Status Unit}
    (h : Sends p w r w') :
    w'.client = { w.client with
      txBuffer := w'.client.txBuffer, txPendingLen := w'.client.txPendingLen } := by
  cases h <;> rfl

theorem Sends.sound {w w' : World σ} {p : Packet} {r : Except Status Unit} (hs : w.client.Sound)
    (h : Sends p w r w') : w'.client.Sound := by
  cases h with
  | encodeFailed buf hlen => exact { hs with txLength := hlen.trans hs.txLength }
  | refused buf hlen => exact { hs with txLength := hlen.trans hs.txLength }
  | failed buf write res env hlen => exact { hs with txLength := hlen.trans hs.txLength }
  | sent buf write res env hlen hfits =>
    exact { hs with
      txLength := hlen.trans hs.txLength
      txPending := (Nat.sub_le _ _).trans (hs.txLength ▸ hfits) }

/-- A send path that does not report OK is one step of the link. -/
theorem Sends.step_error {w w' : World σ} {p : Packet} {status : Status} (hs : w.client.Sound)
    (hp : w.link.MaySend p) (h : Sends p w (.error status) w') : Link.Step w.link w'.link := by
  have hlen : w.link.staged.length = w.client.txPendingLen := hs.length_staged
  have htake : ∀ buf : List UInt8, buf.length = w.client.txBuffer.length →
      (buf.take w.client.txPendingLen).length = w.link.staged.length := by
    intro buf hbuf
    rw [hlen, List.length_take, hbuf, hs.txLength, Nat.min_eq_left hs.txPending]
  cases h with
  | encodeFailed buf hbuf =>
    have := Link.Step.encodeFailed w.link p _ hp (htake buf hbuf)
    rwa [hlen] at this
  | refused buf hbuf hpos hfront =>
    have := Link.Step.sendRefused w.link p _ hp (hs.staged_ne_nil hpos) (htake buf hbuf)
    rwa [hlen] at this
  | failed buf write res env hbuf hzero hf hcall hres =>
    have hnil := Client.staged_eq_nil hzero
    have := Link.Step.sendFailed w.link p res hp hnil hres
    have hlink : (⟨{ w.client with txBuffer := buf }, env, .write p.bytes res ::
        .encode w.client.state w.client.txPendingLen p :: w.trace⟩ : World σ).link =
        { w.link with
          trace := .write p.bytes res :: .encode w.link.state 0 p :: w.link.trace } := by
      simp only [World.link, Client.staged, hzero, List.take_zero]
      rfl
    rwa [hlink]

/-- A send path that reports OK is one step of the link. For a CONNECT that step also sets
`connect_sent`, which the code does next. -/
theorem Sends.step_ok {w w' : World σ} {p : Packet} (hp : w.link.MaySend p)
    (h : Sends p w (.ok ()) w') :
    Link.Step w.link { w'.link with connectSent := w.client.connectSent || p.isConnect } := by
  cases h with
  | sent buf write res env hbuf hfits hzero hf hcall hres hstaged =>
    have := Link.Step.sent w.link p res hp (Client.staged_eq_nil hzero) hres
    rw [← hstaged] at this
    rw [hzero]
    exact this

/-- Every send path but that of CONNECT keeps to the link as it is. -/
theorem Sends.refines {w w' : World σ} {p : Packet} {r : Except Status Unit} (hs : w.client.Sound)
    (hp : p.isConnect = false) (h : Sends p w r w') : Refines w w' := by
  have hmay : w.link.MaySend p := by
    intro htrue
    rw [hp] at htrue
    cases htrue
  refine ⟨h.sound hs, by rw [h.client_eq]; rfl, .single ?_⟩
  cases r with
  | error status => exact h.step_error hs hmay
  | ok u =>
    have hstep := h.step_ok hmay
    have hsent : w'.client.connectSent = w.client.connectSent := by rw [h.client_eq]
    rwa [hp, Bool.or_false, ← hsent] at hstep

/-! ## Requests -/

theorem Posts.refines {w w' : World σ} {r : Except Status Unit} (hs : w.client.Sound)
    (h : Posts w r w') : Refines w w' ∧ w'.client.state = w.client.state := by
  cases h with
  | unsupported => exact ⟨.refl hs, rfl⟩
  | attempted p id r w' hconnect hping hsends =>
    have hs' : ({ w.client with packetId := id } : Client σ).Sound := { hs with }
    have href := hsends.refines hs' hconnect
    refine ⟨⟨href.sound, href.setup, href.steps⟩, ?_⟩
    rw [hsends.client_eq]

/-- A request keeps to the link, and an established connection stays one. -/
theorem request_refines {w w' : World σ} {q : Request} {r : Except Status Unit}
    (hs : w.client.Sound) (h : request q w = .ok (r, w')) :
    Refines w w' ∧ (w.link.Established → w'.link.Established) := by
  -- the two sending requests change no state
  have hposts : q.sends = true → Refines w w' ∧ (w.link.Established → w'.link.Established) := by
    intro hq
    obtain ⟨href, hstate⟩ := (request_posts hs hq h).refines hs
    exact ⟨href, fun hest => hest.imp hstate.trans hstate.trans⟩
  cases q with
  | connect =>
    have h' : connect w = .ok (r, w') := h
    rw [connect_eq] at h'
    have hlen : w.link.staged.length = w.client.txPendingLen := hs.length_staged
    split at h'
    · next hstate =>
      cases h'
      have hstep := Link.Step.connectCall w.link hstate
      rw [hlen, ← hstate] at hstep
      refine ⟨⟨?_, rfl, .single hstep⟩, fun hest => ?_⟩
      · exact { hs with
          txPending := Nat.zero_le _
          rxHeld := Nat.zero_le _
          callbacks := hs.callbacks.imp_right fun hc => ⟨hc.1, hc.2.1, Or.inr rfl⟩ }
      · exact absurd hest (by simp [Link.Established, World.link, hstate])
    · next hstate =>
      cases h'
      have hstep := Link.Step.connectRefused w.link hstate
      rw [hlen] at hstep
      exact ⟨⟨{ hs with txPending := Nat.zero_le _, rxHeld := Nat.zero_le _ }, rfl,
        .single hstep⟩, id⟩
  | disconnect =>
    have h' : disconnect w = .ok (r, w') := h
    rw [disconnect_eq] at h'
    split at h'
    · next hstate =>
      cases h'
      have hv := hs.equipped (by rw [hstate]; decide) (by rw [hstate]; decide)
      exact ⟨⟨hs.withState hv _, rfl, .single (Link.Step.disconnectCall w.link hstate)⟩,
        fun _ => Or.inr rfl⟩
    · cases h'
      exact ⟨.refl hs, id⟩
  | publish topic payload qos => exact hposts rfl
  | subscribe topic qos => exact hposts rfl

/-- So do the requests a callback makes. -/
theorem requests_refine {w w' : World σ} {qs : List Request} {r : Except Status Unit}
    (hs : w.client.Sound) (hest : w.link.Established)
    (h : Prog.forAll request qs w = .ok (r, w')) : Refines w w' ∧ w'.link.Established := by
  refine Prog.forAll_invariant (P := fun v => Refines w v ∧ v.link.Established)
    ⟨.refl hs, hest⟩ (fun q _ v r v' hv hrun => ?_) h
  obtain ⟨href, hkeep⟩ := request_refines hv.1.sound hrun
  exact ⟨hv.1.trans href, hkeep hv.2⟩

/-! ## The packet loop -/

theorem dispatch_refines {w w' : World σ} {header : FixedHeader} {r : Except Status Unit}
    (hs : w.client.Sound) (hest : w.link.Established)
    (hparse : parseHeader w.client.held = .ok header) (hn : header.packetLen ≤ w.client.rxLen)
    (h : clientDispatchPacket header header.packetLen w = .ok (r, w')) :
    Refines w w' ∧ w'.link.Established := by
  rw [clientDispatchPacket_eq hs hparse hn] at h
  split at h
  · cases h
    exact ⟨.refl hs, hest⟩
  · next topic payload onMessage _ _ =>
    have hstep := Link.Step.message w.link topic payload hest
    obtain ⟨href, hest'⟩ := requests_refine (w := ⟨w.client, (onMessage w.env topic payload).2,
      .message topic payload :: w.trace⟩) hs hest h
    exact ⟨⟨href.sound, href.setup, .head hstep href.steps⟩, hest'⟩
  · cases h
    exact ⟨.refl hs, hest⟩

theorem consume_refines {w w' : World σ} {n : Nat} {r : Except Status Unit}
    (hs : w.client.Sound) (hest : w.link.Established) (h : consume n w = .ok (r, w')) :
    Refines w w' ∧ w'.link.Established := by
  rw [consume_eq hs] at h
  split at h
  · cases h
    exact ⟨⟨hs.consumed n, rfl, .single (Link.Step.consumed w.link _ hest)⟩, hest⟩
  · cases h

theorem clientReadLoop_refines {w w' : World σ} {fuel : Nat} {r : Except Status Unit}
    (hs : w.client.Sound) (hest : w.link.Established)
    (h : clientReadLoop fuel w = .ok (r, w')) : Refines w w' ∧ w'.link.Established := by
  induction fuel generalizing w with
  | zero => cases h
  | succ fuel ih =>
    rcases clientReadLoop_turn fuel hs with ⟨r₀, hrun, -⟩ | ⟨header, hparse, -, hn, hrun⟩
    · rw [hrun] at h
      cases h
      exact ⟨.refl hs, hest⟩
    · -- a whole packet: dispatch it, drop it, go on
      rw [hrun] at h
      rcases Prog.bind_eq_ok.mp h with ⟨e, hdisp, -⟩ | ⟨_, w₁, hdisp, h₁⟩
      · exact dispatch_refines hs hest hparse hn hdisp
      · obtain ⟨href₁, hest₁⟩ := dispatch_refines hs hest hparse hn hdisp
        rcases Prog.bind_eq_ok.mp h₁ with ⟨e, hcons, -⟩ | ⟨_, w₂, hcons, h₂⟩
        · obtain ⟨href₂, hest₂⟩ := consume_refines href₁.sound hest₁ hcons
          exact ⟨href₁.trans href₂, hest₂⟩
        · obtain ⟨href₂, hest₂⟩ := consume_refines href₁.sound hest₁ hcons
          obtain ⟨href₃, hest₃⟩ := ih href₂.sound hest₂ h₂
          exact ⟨(href₁.trans href₂).trans href₃, hest₃⟩

theorem Client.Sound.exists_read {c : Client σ} (h : c.Sound) (hd : c.state ≠ .disconnected)
    (hc : c.state ≠ .connecting) :
    ∃ read close, c.transport.read = some read ∧ c.transport.disconnect = some close := by
  obtain ⟨_, close, read, _, _, hclose, hread, _⟩ := Transport.validate_eq_true (h.equipped hd hc).1
  exact ⟨read, close, hread, hclose⟩

/-- A connected client that reads without a fault: the read fails, or the loop follows it. -/
theorem clientRead_cases {w w' : World σ} {r : Except Status Unit} (hs : w.client.Sound)
    (hstate : w.client.state = .mqttConnected) (h : clientRead w = .ok (r, w')) :
    ∃ res env, w.client.rxLen + res.data.length ≤ w.client.rxBufferSize ∧
      ((HardError res.status ∧ r = .error res.status ∧ w' = w.afterRead res env) ∨
        (¬ HardError res.status ∧
          clientReadLoop ((w.afterRead res env).client.rxLen + 1) (w.afterRead res env) =
            .ok (r, w'))) := by
  obtain ⟨read, close, hf, -⟩ := hs.exists_read (by rw [hstate]; decide) (by rw [hstate]; decide)
  rcases hcall : read w.env (w.client.rxBufferSize - w.client.rxLen) with ⟨res, env⟩
  rw [clientRead_eq hs hf hcall] at h
  split at h
  · next hfits =>
    refine ⟨res, env, hfits, ?_⟩
    split at h
    · next hres =>
      cases h
      exact Or.inl ⟨hres, rfl, rfl⟩
    · next hres => exact Or.inr ⟨hres, h⟩
  · cases h

theorem clientRead_refines {w w' : World σ} {r : Except Status Unit} (hs : w.client.Sound)
    (hstate : w.client.state = .mqttConnected) (h : clientRead w = .ok (r, w')) :
    Refines w w' ∧ w'.link.Established := by
  obtain ⟨res, env, hfits, hread⟩ := clientRead_cases hs hstate h
  have hest : w.link.Established := Or.inl hstate
  have hstep := Link.Step.read w.link (w.client.rxBufferSize - w.client.rxLen) res
    (w.client.received res).held hest
  have href : Refines w (w.afterRead res env) := ⟨hs.received hfits, rfl, .single hstep⟩
  rcases hread with ⟨-, -, rfl⟩ | ⟨-, hloop⟩
  · exact ⟨href, hest⟩
  · obtain ⟨href', hest'⟩ := clientReadLoop_refines href.sound hest hloop
    exact ⟨href.trans href', hest'⟩

/-! ## State handlers -/

theorem stamped_refines {w : World σ} (hs : w.client.Sound)
    (hstate : w.client.state ≠ .mqttConnectSent) : Refines w w.stamped :=
  ⟨{ hs with }, rfl, stamped_steps hstate⟩

theorem readClock_refines {w : World σ} (hs : w.client.Sound) : Refines w w.readClock.2 :=
  ⟨by rw [readClock_client]; exact hs, by rw [readClock_client], readClock_steps w⟩

theorem Opens.refines {w w' : World σ} {r : Except Status Unit} (hs : w.client.Sound)
    (hstate : w.client.state = .connecting) (h : Opens w r w') : Refines w w' := by
  cases h with
  | opened open_ env hf hcall =>
    have hv : w.client.Equipped := by
      rcases hs.callbacks with hv | ⟨hnone, -⟩
      · exact hv
      · rw [hf] at hnone
        cases hnone
    obtain ⟨now, hnow⟩ := Option.isSome_iff_exists.mp hv.2
    have hstep := Link.Step.opened w.link (now env).1 hstate
    refine ⟨{ hs.withState hv .mqttConnectSent with }, rfl, .single ?_⟩
    simp only [World.stamped, World.readClock, hnow]
    exact hstep
  | blocked open_ status env hf hcall hst =>
    exact ⟨hs, rfl, .single (Link.Step.openBlocked w.link status hstate hst)⟩
  | failed open_ status env hf hcall hst =>
    exact ⟨hs.disconnected, rfl, .single (Link.Step.openFailed w.link status hstate hst)⟩
  | missing hf =>
    exact ⟨hs.disconnected, rfl, .single (Link.Step.openMissing w.link hstate)⟩

theorem Rejected.sound {w w' : World σ} {close : σ → Status × σ} (hs : w.client.Sound)
    (h : Rejected w close w') : w'.client.Sound := by
  obtain ⟨c, rfl | ⟨n, -, rfl⟩, rfl⟩ := h
  · exact hs.disconnected
  · exact (hs.consumed n).disconnected

theorem ReadResult.taken_of_hardError {res : ReadResult} (h : HardError res.status) :
    res.taken = [] := if_neg h.1

theorem afterRead_link {w : World σ} (hs : w.client.Sound) (res : ReadResult) (env : σ) :
    (w.afterRead res env).link =
      { w.link with
        held := w.link.held ++ res.taken
        trace := .read (w.link.size - w.link.held.length) res :: w.link.trace } := by
  have hlen : w.link.held.length = w.client.rxLen := hs.length_held
  rw [hlen]
  simp only [World.link, World.afterRead, hs.held_received]
  rfl

/-- The link of a client that drops the transport. -/
theorem dropped_link (w : World σ) (close : σ → Status × σ) :
    (w.dropped close).link =
      { w.link with
        state := .disconnected, trace := .disconnect (close w.env).1 :: w.link.trace } := rfl

/-- The link of a client that has taken a CONNACK of `n` bytes for an acceptance. -/
theorem accepted_link {w : World σ} (hs : w.client.Sound) (n : Nat) :
    (⟨{ w.client.consumed n with state := .mqttConnected }, w.env, w.trace⟩ : World σ).link =
      { w.link with state := .mqttConnected, held := w.link.held.drop n } := by
  have hheld : ({ w.client.consumed n with state := .mqttConnected } : Client σ).held =
      w.client.held.drop n := hs.held_consumed n
  simp only [World.link, hheld]
  rfl

/-- One turn of the CONNACK wait keeps to the link: the read and the verdict on what is held then
are one step. -/
theorem Waits.refines {w w' : World σ} {close : σ → Status × σ} {res : ReadResult} {env : σ}
    {r : Except Status Unit} (hs : w.client.Sound) (hstate : w.client.state = .mqttConnectSent)
    (hfits : w.client.rxLen + res.data.length ≤ w.client.rxBufferSize)
    (h : Waits (w.afterRead res env) close res r w') : Refines w w' := by
  have hs₁ : (w.afterRead res env).client.Sound := hs.received hfits
  have hv : (w.afterRead res env).client.Equipped :=
    hs.equipped (by rw [hstate]; decide) (by rw [hstate]; decide)
  have hlink := afterRead_link hs res env
  have hroom : w.link.held.length + res.data.length ≤ w.link.size := by
    rw [show w.link.held.length = w.client.rxLen from hs.length_held]
    exact hfits
  have hsetup : (w.afterRead res env).client.setup = w.client.setup := rfl
  have hstate₁ : (w.afterRead res env).client.state = .mqttConnectSent := hstate
  have hverdict : connackVerdict (w.afterRead res env).client.rxBufferSize
      (w.afterRead res env).client.held =
      connackVerdict w.link.size (w.link.held ++ res.taken) :=
    congrArg (connackVerdict _) (hs.held_received res)
  -- only these facts about the read are needed; the verdict is one on the link
  generalize w.afterRead res env = w₁ at h hs₁ hv hlink hsetup hstate₁ hverdict
  cases h with
  | failed hres =>
    refine ⟨hs₁.disconnected, hsetup, .single ?_⟩
    rw [dropped_link, hlink, ReadResult.taken_of_hardError hres, List.append_nil]
    exact Link.Step.awaitFailed w.link res _ hstate hres
  | rejected status w' hres hv₁ hw' =>
    rw [hverdict] at hv₁
    have hsound := hw'.sound hs₁
    obtain ⟨c, hc, rfl⟩ := hw'
    have hdrop : (World.dropped ⟨c, w₁.env, w₁.trace⟩ close).link =
        { w₁.link with
          state := .disconnected, held := c.held
          trace := .disconnect (close w₁.env).1 :: w₁.link.trace } := by
      rcases hc with rfl | ⟨n, -, rfl⟩
      · rfl
      · rfl
    refine ⟨hsound, ?_, .single ?_⟩
    · rw [← hsetup]
      rcases hc with rfl | ⟨n, -, rfl⟩
      · rfl
      · rfl
    · rw [hdrop, hlink]
      exact Link.Step.rejected w.link res status _ c.held hstate hres hroom hv₁
  | accepted n hres hv₁ hn =>
    rw [hverdict] at hv₁
    have hs₂ := (hs₁.consumed n).withState hv .mqttConnected
    have href : Refines w ⟨{ w₁.client.consumed n with state := .mqttConnected }, w₁.env,
        w₁.trace⟩ := by
      refine ⟨hs₂, hsetup, .single ?_⟩
      rw [accepted_link hs₁, hlink]
      exact Link.Step.accepted w.link res n hstate hres hroom hv₁
    exact href.trans (stamped_refines hs₂ (by simp))
  | timedOut hres hv₁ hlate =>
    rw [hverdict] at hv₁
    -- first the read and its verdict, then the clock, then the close
    have href : Refines w w₁ := by
      refine ⟨hs₁, hsetup, .single ?_⟩
      rw [hlink]
      exact Link.Step.awaiting w.link res hstate hres hroom hv₁
    have hclock := href.trans (readClock_refines hs₁)
    have hstate₂ : w₁.readClock.2.link.state = .mqttConnectSent := by
      simp only [World.link, readClock_client]
      exact hstate₁
    exact hclock.trans ⟨hclock.sound.disconnected, rfl,
      .single (Link.Step.timedOut w₁.readClock.2.link _ hstate₂)⟩
  | waiting hres hv₁ hearly =>
    rw [hverdict] at hv₁
    have href : Refines w w₁ := by
      refine ⟨hs₁, hsetup, .single ?_⟩
      rw [hlink]
      exact Link.Step.awaiting w.link res hstate hres hroom hv₁
    exact href.trans (readClock_refines hs₁)

/-- The handlers of `DISCONNECTED` and `MQTT_CONNECTED` do nothing. -/
theorem corePoll_of_idle {w : World σ}
    (hstate : w.client.state = .disconnected ∨ w.client.state = .mqttConnected) :
    Core.poll w = .ok (.ok (), w) := by
  unfold Core.poll
  rcases hstate with hstate | hstate
  · simp only [run_getClient_bind, hstate]
    rfl
  · simp only [run_getClient_bind, hstate]
    rfl

theorem corePoll_opens {w : World σ} (hstate : w.client.state = .connecting) :
    Core.poll.Returns w (Opens w) := by
  have hcore : Core.poll w = handleStateConnecting w := by
    unfold Core.poll
    simp only [run_getClient_bind, hstate]
  unfold Prog.Returns
  rw [hcore]
  exact handleStateConnecting_returns w

/-- A poll in `MQTT_CONNECT_SENT` reads once, and takes a turn of the CONNACK wait if the bytes fit
into `rx_buffer`. -/
theorem corePoll_waits {w : World σ} (hs : w.client.Sound)
    (hstate : w.client.state = .mqttConnectSent) :
    ∃ read close res env, w.client.transport.read = some read ∧
      read w.env (w.client.rxBufferSize - w.client.rxLen) = (res, env) ∧
      ((w.client.rxBufferSize < w.client.rxLen + res.data.length ∧
          Core.poll w = .error .outOfBounds) ∨
        (w.client.rxLen + res.data.length ≤ w.client.rxBufferSize ∧
          Core.poll.Returns w (Waits (w.afterRead res env) close res))) := by
  obtain ⟨read, close, hread, hclose⟩ :=
    hs.exists_read (by rw [hstate]; decide) (by rw [hstate]; decide)
  rcases hcall : read w.env (w.client.rxBufferSize - w.client.rxLen) with ⟨res, env⟩
  have hcore : Core.poll w = handleStateMqttConnectSent w := by
    unfold Core.poll
    simp only [run_getClient_bind, hstate]
  refine ⟨read, close, res, env, hread, hcall, ?_⟩
  unfold Prog.Returns
  rw [hcore]
  exact handleStateMqttConnectSent_eq hs hclose hread hcall

theorem corePoll_closes {w : World σ} (hs : w.client.Sound)
    (hstate : w.client.state = .mqttDisconnecting) :
    ∃ close, Core.poll w = .ok (.ok (), w.dropped close) := by
  obtain ⟨_, close, -, hclose⟩ :=
    hs.exists_read (by rw [hstate]; decide) (by rw [hstate]; decide)
  refine ⟨close, ?_⟩
  unfold Core.poll
  simp only [run_getClient_bind, hstate]
  exact dropTransport_eq hclose

/-- How the handler of a state can end, if it does not fault. -/
inductive CoreTurn (w : World σ) : Except Status Unit → World σ → Prop
  | idle (hstate : w.client.state = .disconnected ∨ w.client.state = .mqttConnected) :
      CoreTurn w (.ok ()) w
  | opens (r : Except Status Unit) (w' : World σ) (hstate : w.client.state = .connecting)
      (hopens : Opens w r w') : CoreTurn w r w'
  | waits (r : Except Status Unit) (w' : World σ) (close : σ → Status × σ) (res : ReadResult)
      (env : σ) (hstate : w.client.state = .mqttConnectSent)
      (hfits : w.client.rxLen + res.data.length ≤ w.client.rxBufferSize)
      (hwaits : Waits (w.afterRead res env) close res r w') : CoreTurn w r w'
  | closes (close : σ → Status × σ) (hstate : w.client.state = .mqttDisconnecting) :
      CoreTurn w (.ok ()) (w.dropped close)

theorem corePoll_turn {w w' : World σ} {r : Except Status Unit} (hs : w.client.Sound)
    (h : Core.poll w = .ok (r, w')) : CoreTurn w r w' := by
  have hidle : w.client.state = .disconnected ∨ w.client.state = .mqttConnected →
      CoreTurn w r w' := by
    intro hstate
    rw [corePoll_of_idle hstate] at h
    cases h
    exact .idle hstate
  -- one handler for each state, as in the `switch` of the source
  cases hstate : w.client.state with
  | disconnected => exact hidle (Or.inl hstate)
  | connecting =>
    obtain ⟨r', w'', hrun, hopens⟩ := corePoll_opens hstate
    rw [hrun] at h
    cases h
    exact .opens _ _ hstate hopens
  | mqttConnectSent =>
    obtain ⟨_, close, res, env, -, -, hturn⟩ := corePoll_waits hs hstate
    rcases hturn with ⟨-, hfault⟩ | ⟨hfits, r', w'', hrun, hwaits⟩
    · rw [hfault] at h
      cases h
    · rw [hrun] at h
      cases h
      exact .waits _ _ close res env hstate hfits hwaits
  | mqttConnected => exact hidle (Or.inr hstate)
  | mqttDisconnecting =>
    obtain ⟨close, hclose⟩ := corePoll_closes hs hstate
    rw [hclose] at h
    cases h
    exact .closes close hstate

/-- **`aemlib_core_poll` keeps to the link.** -/
theorem corePoll_refines {w w' : World σ} {r : Except Status Unit} (hs : w.client.Sound)
    (h : Core.poll w = .ok (r, w')) : Refines w w' := by
  cases corePoll_turn hs h with
  | idle hstate => exact .refl hs
  | opens r w' hstate hopens => exact hopens.refines hs hstate
  | waits r w' close res env hstate hfits hwaits => exact hwaits.refines hs hstate hfits
  | closes close hstate =>
    exact ⟨hs.disconnected, rfl, .single (Link.Step.closed w.link _ hstate)⟩

/-! ## The public API -/

theorem pollConnectSent_refines {w w' : World σ} {r : Except Status Unit} (hs : w.client.Sound)
    (hstate : w.client.state = .mqttConnectSent) (h : pollConnectSent w = .ok (r, w')) :
    Refines w w' := by
  cases pollConnectSent_introduces hs h with
  | already hsent => exact .refl hs
  | failed status w' hnot hsends =>
    have hmay : w.link.MaySend w.client.connectPacket := fun _ => ⟨rfl, hstate, hnot⟩
    exact ⟨hsends.sound hs, by rw [hsends.client_eq]; rfl, .single (hsends.step_error hs hmay)⟩
  | sent w₁ hnot hsends =>
    have hmay : w.link.MaySend w.client.connectPacket := fun _ => ⟨rfl, hstate, hnot⟩
    refine ⟨{ hsends.sound hs with }, ?_, .single ?_⟩
    · show w₁.client.setup = w.client.setup
      rw [hsends.client_eq]
      rfl
    · have hstep := hsends.step_ok hmay
      rw [hnot] at hstep
      exact hstep

/-- The keepalive keeps to the link and leaves the state alone. -/
theorem keepalive_refines {w w' : World σ} {r : Except Status Unit} (hs : w.client.Sound)
    (hest : w.link.Established) (h : keepalive w = .ok (r, w')) :
    Refines w w' ∧ w'.client.state = w.client.state := by
  have hclock := readClock_refines hs
  have hkeep : ∀ {r₁ : Except Status Unit} {w₁ : World σ}, Sends .pingreq w.readClock.2 r₁ w₁ →
      w₁.client.state = w.client.state := by
    intro r₁ w₁ hsends
    rw [hsends.client_eq]
    simp only [readClock_client]
  cases keepalive_beats hs h with
  | early hearly => exact ⟨hclock, by rw [readClock_client]⟩
  | failed status w' hsends =>
    exact ⟨hclock.trans (hsends.refines hclock.sound rfl), hkeep hsends⟩
  | pinged w₁ hdue hsends =>
    have href := hsends.refines hclock.sound rfl
    have hsame := hkeep hsends
    have hstate : w₁.client.state ≠ .mqttConnectSent := by
      rw [hsame]
      rcases hest with hest | hest <;> simp [show w.client.state = _ from hest]
    exact ⟨hclock.trans ⟨{ href.sound with }, href.setup,
      href.steps.tail (Link.Step.noted w₁.link w.readClock.1 hstate)⟩, hsame⟩

/-- What a poll does with a connected client keeps to the link. -/
theorem readAndKeepalive_refines {w w' : World σ} {r : Except Status Unit} (hs : w.client.Sound)
    (hstate : w.client.state = .mqttConnected)
    (h : (clientRead >>= fun _ => keepalive) w = .ok (r, w')) :
    Refines w w' ∧ w'.link.Established := by
  rcases Prog.bind_eq_ok.mp h with ⟨e, hread, -⟩ | ⟨_, w₁, hread, hkeep⟩
  · exact clientRead_refines hs hstate hread
  · obtain ⟨href₁, hest₁⟩ := clientRead_refines hs hstate hread
    obtain ⟨href₂, hstate₂⟩ := keepalive_refines href₁.sound hest₁ hkeep
    exact ⟨href₁.trans href₂, hest₁.imp hstate₂.trans hstate₂.trans⟩

/-- The stages of a poll: the flush, the handler of the state, and what the new state calls for. -/
theorem poll_cases {w w' : World σ} {r : Except Status Unit} (h : poll w = .ok (r, w')) :
    (∃ e, clientFlushPending w = .ok (.error e, w') ∧ r = .error e) ∨
    ∃ w₁, clientFlushPending w = .ok (.ok (), w₁) ∧
      ((∃ e, Core.poll w₁ = .ok (.error e, w') ∧ r = .error e) ∨
       ∃ w₂, Core.poll w₁ = .ok (.ok (), w₂) ∧
        ((w₂.client.state = .mqttConnectSent ∧ pollConnectSent w₂ = .ok (r, w')) ∨
         (w₂.client.state = .mqttConnected ∧
            (clientRead >>= fun _ => keepalive) w₂ = .ok (r, w')) ∨
         (w₂.client.state ≠ .mqttConnectSent ∧ w₂.client.state ≠ .mqttConnected ∧ r = .ok () ∧
            w' = w₂))) := by
  unfold poll at h
  rcases Prog.bind_eq_ok.mp h with ⟨e, hflush, hr⟩ | ⟨_, w₁, hflush, h₁⟩
  · exact Or.inl ⟨e, hflush, hr⟩
  · refine Or.inr ⟨w₁, hflush, ?_⟩
    rcases Prog.bind_eq_ok.mp h₁ with ⟨e, hcore, hr⟩ | ⟨_, w₂, hcore, h₂⟩
    · exact Or.inl ⟨e, hcore, hr⟩
    · refine Or.inr ⟨w₂, hcore, ?_⟩
      simp only [run_getClient_bind] at h₂
      cases hstate : w₂.client.state with
      | mqttConnectSent =>
        simp only [hstate] at h₂
        exact Or.inl ⟨rfl, h₂⟩
      | mqttConnected =>
        simp only [hstate] at h₂
        exact Or.inr (Or.inl ⟨rfl, h₂⟩)
      -- no code for these states behind the handler
      | disconnected | connecting | mqttDisconnecting =>
        simp only [hstate, Prog.run_pure] at h₂
        cases h₂
        exact Or.inr (Or.inr ⟨by simp, by simp, rfl, rfl⟩)

/-- A handler that fails ends the poll. -/
theorem poll_of_coreError {w w₁ w' : World σ} {e : Status}
    (hflush : clientFlushPending w = .ok (.ok (), w₁))
    (hcore : Core.poll w₁ = .ok (.error e, w')) : poll w = .ok (.error e, w') := by
  unfold poll
  rw [Prog.bind_of_ok hflush, Prog.bind_of_error hcore]

/-- A poll that finds or makes the client connected goes on to read and to keep alive. -/
theorem poll_of_connected {w w₁ w₂ : World σ} (hflush : clientFlushPending w = .ok (.ok (), w₁))
    (hcore : Core.poll w₁ = .ok (.ok (), w₂)) (hstate : w₂.client.state = .mqttConnected) :
    poll w = (clientRead >>= fun _ => keepalive) w₂ := by
  unfold poll
  rw [Prog.bind_of_ok hflush, Prog.bind_of_ok hcore]
  simp only [run_getClient_bind, hstate]

/-- **`aemlib_poll` keeps to the link.** -/
theorem poll_refines {w w' : World σ} {r : Except Status Unit} (hs : w.client.Sound)
    (h : poll w = .ok (r, w')) : Refines w w' := by
  rcases poll_cases h with ⟨e, hflush, -⟩ | ⟨w₁, hflush, h₁⟩
  · exact (clientFlushPending_flushes hs hflush).refines hs
  · have href₁ := (clientFlushPending_flushes hs hflush).refines hs
    rcases h₁ with ⟨e, hcore, -⟩ | ⟨w₂, hcore, h₂⟩
    · exact href₁.trans (corePoll_refines href₁.sound hcore)
    · have href₂ := href₁.trans (corePoll_refines href₁.sound hcore)
      rcases h₂ with ⟨hstate, h₃⟩ | ⟨hstate, h₃⟩ | ⟨-, -, -, rfl⟩
      · exact href₂.trans (pollConnectSent_refines href₂.sound hstate h₃)
      · exact href₂.trans (readAndKeepalive_refines href₂.sound hstate h₃).1
      · exact href₂

/-- A zeroed client is sound: it has no buffers and no transport. -/
theorem zero_sound : (Client.zero σ).Sound where
  txLength := rfl
  rxLength := rfl
  txSize := Nat.two_pow_pos 64
  rxSize := Nat.two_pow_pos 64
  txPending := Nat.le_refl 0
  rxHeld := Nat.le_refl 0
  callbacks := Or.inr ⟨rfl, rfl, Or.inl rfl⟩

/-- What `aemlib_init` makes of a configuration, before it looks at the clock. -/
def Config.client (cfg : Config σ) : Client σ where
  state := .disconnected
  transport := cfg.transport
  nowMs := cfg.nowMs
  txBuffer := cfg.txBuffer.getD []
  txBufferSize := cfg.txBufferSize
  rxBuffer := cfg.rxBuffer.getD []
  rxBufferSize := cfg.rxBufferSize
  lastActivityMs := 0
  keepaliveIntervalMs := cfg.keepaliveIntervalMs
  packetId := 1
  connectSent := false
  txPendingLen := 0
  rxLen := 0
  onMessage := cfg.onMessage

/-- A configuration is refused, or makes a sound client. -/
theorem validateConfig_eq (cfg : Config σ) :
    validateConfig (some cfg) = invalidArg ∨
      validateConfig (some cfg) = statusOk ∧ cfg.client.Sound := by
  -- a buffer that is there has the size the configuration gives
  have owned : ∀ {b : Option (List UInt8)} {n : Nat}, (∀ l, b = some l → l.length = n) →
      ¬ (b.isNone = true ∨ n = 0) → (b.getD []).length = n := by
    intro b n hown hne
    cases b with
    | none => simp at hne
    | some l => exact hown l rfl
  unfold validateConfig
  simp only
  split
  · exact Or.inl rfl
  · next htx =>
    split
    · exact Or.inl rfl
    · next hrx =>
      split
      · exact Or.inl rfl
      · next ht =>
        split
        · exact Or.inl rfl
        · next hn =>
          refine Or.inr ⟨rfl, ?_⟩
          exact
            { txLength := owned cfg.txOwned htx
              rxLength := owned cfg.rxOwned hrx
              txSize := cfg.txSizeLt
              rxSize := cfg.rxSizeLt
              txPending := Nat.zero_le _
              rxHeld := Nat.zero_le _
              callbacks := Or.inl ⟨(Bool.not_eq_false _).mp ht, by
                simpa [Config.client] using Option.isSome_iff_ne_none.mpr (by simpa using hn)⟩ }

/-- How `aemlib_init` can end; it never faults. -/
inductive Inits (w : World σ) : Option (Config σ) → Except Status Unit → World σ → Prop
  | failed (config : Option (Config σ)) :
      Inits w config (.error invalidArg) ⟨Client.zero σ, w.env, .init :: w.trace⟩
  | ok (cfg : Config σ) (hs : cfg.client.Sound) :
      Inits w (some cfg) (.ok ()) (World.stamped ⟨cfg.client, w.env, .init :: w.trace⟩)

theorem init_returns (config : Option (Config σ)) (w : World σ) :
    (init config).Returns w (Inits w config) := by
  have hbad : invalidArg ≠ statusOk := by decide
  have hfail : validateConfig config = invalidArg →
      (init config).Returns w (Inits w config) := by
    intro hstatus
    refine ⟨_, _, ?_, Inits.failed config⟩
    unfold init Core.init
    simp only [Prog.run_modify_bind, hstatus, ne_eq, hbad, not_false_eq_true, if_true,
      Prog.run_throw_bind]
  cases config with
  | none => exact hfail rfl
  | some cfg =>
    rcases validateConfig_eq cfg with hstatus | ⟨hstatus, hs⟩
    · exact hfail hstatus
    · refine ⟨_, _, ?_, Inits.ok cfg hs⟩
      rw [← stamp_eq]
      unfold init Core.init
      simp only [Prog.run_modify_bind, hstatus, ne_eq, not_true_eq_false, if_false]
      rfl

/-- **`aemlib_init` keeps to the link**, and leaves a sound client behind whatever was there. -/
theorem Inits.refines {config : Option (Config σ)} {w w' : World σ} {r : Except Status Unit}
    (h : Inits w config r w') :
    w'.client.Sound ∧ ∃ size hello, Link.Steps (Link.fresh size hello w.trace) w'.link := by
  cases h with
  | failed => exact ⟨zero_sound, 0, (Client.zero σ).connectPacket, .refl⟩
  | ok cfg hs =>
    exact ⟨{ hs with }, cfg.client.rxBufferSize, cfg.client.connectPacket,
      stamped_steps (w := ⟨cfg.client, w.env, .init :: w.trace⟩) (by simp [Config.client])⟩

end Aemlib
