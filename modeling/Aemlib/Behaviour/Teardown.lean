import Aemlib.Behaviour.Bounds
import Aemlib.Trace

/-!
# Leaving a connection

A poll begins by flushing what is staged, and gives up if that fails with a hard error. So whether a
teardown or a timeout goes through, and whether a disconnected client keeps quiet, is decided by
what is staged and by the transport's answer to it. Both are pinned down exactly here.
-/

namespace Aemlib

open Machine Proto

variable {σ : Type}

/-! ## The flush -/

/-- The flush a poll begins with fails: bytes are staged, and the transport answers them with a
hard error. -/
def FlushFails (w : World σ) : Prop :=
  0 < w.client.txPendingLen ∧
    ∃ write, w.client.transport.write = some write ∧
      HardError (write w.env w.client.staged).1.status

/-- A flush that fails ends the poll and leaves the client as it was. -/
theorem poll_of_flushFails {w : World σ} (hs : w.client.Sound) (h : FlushFails w) :
    ∃ status w', poll w = .ok (.error status, w') ∧ w'.client = w.client ∧
      ∃ res, w'.trace = .write w.client.staged res :: w.trace := by
  obtain ⟨hpos, write, hf, hres⟩ := h
  rcases hcall : write w.env w.client.staged with ⟨res, env⟩
  rw [hcall] at hres
  have hflush := clientFlushPending_eq hs hpos hf hcall
  rw [if_pos hres] at hflush
  exact ⟨_, _, Prog.bind_of_error hflush, rfl, res, rfl⟩

/-- A flush that does not fail leaves the state, the bytes held and the setup alone. -/
theorem flush_of_not_flushFails {w : World σ} (hw : w.Safe) (h : ¬ FlushFails w) :
    ∃ w₁, clientFlushPending w = .ok (.ok (), w₁) ∧ Flushes w (.ok ()) w₁ := by
  obtain ⟨r, w₁, hrun, hflushes⟩ := clientFlushPending_returns hw.sound
    hw.contract.transport.writesWithin
  cases r with
  | ok u => exact ⟨w₁, hrun, hflushes⟩
  | error status =>
    cases hflushes with
    | failed write res env hpos hf hcall hres =>
      exact absurd ⟨hpos, write, hf, by rw [hcall]; exact hres⟩ h

theorem Flushes.trace_eq {w w' : World σ} {r : Except Status Unit} (h : Flushes w r w')
    (hpos : 0 < w.client.txPendingLen) :
    ∃ res, w'.trace = .write w.client.staged res :: w.trace := by
  cases h with
  | idle hzero => omega
  | failed write res env => exact ⟨res, rfl⟩
  | flushed write res env => exact ⟨res, rfl⟩

/-! ## Quiet when disconnected -/

/-- A poll of a disconnected client is the flush and nothing else. -/
theorem poll_of_disconnected {w w' : World σ} {r : Except Status Unit}
    (hs : w.client.Sound) (hstate : w.client.state = .disconnected)
    (hflush : clientFlushPending w = .ok (r, w')) : poll w = .ok (r, w') := by
  unfold poll
  cases r with
  | error status => exact Prog.bind_of_error hflush
  | ok u =>
    have hstate' : w'.client.state = .disconnected := by
      rw [(clientFlushPending_flushes hs hflush).client_eq]
      exact hstate
    rw [Prog.bind_of_ok hflush, Prog.bind_of_ok (corePoll_of_idle (Or.inl hstate'))]
    simp only [run_getClient_bind, hstate']
    rfl

/-- A poll that finds bytes staged in a disconnected client offers them to the transport. -/
theorem poll_writes_of_disconnected {w w' : World σ} {r : Except Status Unit}
    (hs : w.client.Sound) (hstate : w.client.state = .disconnected)
    (hpos : 0 < w.client.txPendingLen) (h : poll w = .ok (r, w')) :
    ∃ res, w'.trace = .write w.client.staged res :: w.trace := by
  cases hflush : clientFlushPending w with
  | error fault =>
    unfold poll at h
    rw [Prog.bind_of_fault hflush] at h
    cases h
  | ok q =>
    obtain ⟨r₁, w₁⟩ := q
    rw [poll_of_disconnected hs hstate hflush] at h
    cases h
    exact (clientFlushPending_flushes hs hflush).trace_eq hpos

/-- **A disconnected client is quiet** exactly when nothing is staged: then, and only then, does
`aemlib_poll` report OK and leave the client, the environment and the trace of transport calls as
they are, however often it is called. -/
theorem disconnected_quiet_iff {w : World σ} (h : Reachable w)
    (hstate : w.client.state = .disconnected) :
    (poll w = .ok (.ok (), w) ∧ ∀ n, run (List.replicate n .poll) w = .ok (.ok (), w)) ↔
      w.client.txPendingLen = 0 := by
  constructor
  · intro hquiet
    by_contra hne
    obtain ⟨res, htrace⟩ := poll_writes_of_disconnected h.sound hstate (by omega) hquiet.1
    exact absurd (congrArg List.length htrace) (by simp)
  · intro hzero
    have hpoll := poll_of_disconnected h.sound hstate (clientFlushPending_nil hzero)
    refine ⟨hpoll, fun n => ?_⟩
    induction n with
    | zero => rfl
    | succ n ih => exact Prog.attempt_bind_eq_ok.mpr ⟨_, _, hpoll, ih⟩

/-- A client whose transport could not connect. -/
theorem disconnected_quiet_refused :
    ∃ w : World Script, Event.connect Script.ioError ∈ w.trace ∧
      poll w = .ok (.ok (), w) ∧ ∀ n, run (List.replicate n .poll) w = .ok (.ok (), w) := by
  obtain ⟨w, hr, -, hevent, hstate, hzero⟩ := exists_reachable
    (P := fun w => Event.connect Script.ioError ∈ w.trace ∧ w.client.state = .disconnected ∧
      w.client.txPendingLen = 0)
    (Script.config 64 64 60000 none) ⟨[Script.ioError], [], [], []⟩
    [.request .connect, .poll] (by decide) (by decide +kernel)
  exact ⟨w, hevent, (disconnected_quiet_iff hr hstate).mpr hzero⟩

/-- A CONNACK that refuses the connection comes while nine bytes of CONNECT are staged. The next
poll of the disconnected client writes them to the closed transport. -/
theorem disconnected_writes :
    ∃ w : World Script, Reachable w ∧ w.client.state = .disconnected ∧
      ∃ r w' res, poll w = .ok (r, w') ∧ w'.trace = .write w.client.staged res :: w.trace := by
  obtain ⟨w, hr, hsetup, hstate, hpos⟩ := exists_reachable
    (P := fun w => w.client.state = .disconnected ∧ 0 < w.client.txPendingLen)
    (Script.config 64 64 60000 (some Script.listen))
    ⟨[], [⟨statusOk, [0x20, 2, 0, 5]⟩], [⟨statusOk, 5⟩, ⟨ioWouldBlock, 0⟩], []⟩
    [.request .connect, .poll, .poll] (by decide) (by decide +kernel)
  have hw : w.Safe := ⟨hr.sound, by rw [hsetup]; exact Script.contract 64 64 60000⟩
  obtain ⟨r, w', hpoll⟩ := poll_returns hw
  obtain ⟨res, htrace⟩ := poll_writes_of_disconnected hr.sound hstate hpos hpoll
  exact ⟨w, hr, hstate, r, w', res, hpoll, htrace⟩

/-! ## Tearing down -/

def closes : List Event → Nat
  | [] => 0
  | .disconnect _ :: t => closes t + 1
  | _ :: t => closes t

theorem Flushes.closes_eq {w w' : World σ} {r : Except Status Unit} (h : Flushes w r w') :
    closes w'.trace = closes w.trace := by
  cases h <;> rfl

/-- A poll tears the connection down: it ends in `DISCONNECTED` and has closed the transport
once. -/
def TearsDown (w : World σ) : Prop :=
  ∃ r w', poll w = .ok (r, w') ∧ w'.client.state = .disconnected ∧
    closes w'.trace = closes w.trace + 1

theorem tearsDown_iff {w : World σ} (hw : w.Safe)
    (hstate : w.client.state = .mqttDisconnecting) : TearsDown w ↔ ¬ FlushFails w := by
  constructor
  · rintro ⟨r, w', hpoll, hdown, -⟩ hfails
    obtain ⟨status, w'', hpoll', hclient, -⟩ := poll_of_flushFails hw.sound hfails
    rw [hpoll'] at hpoll
    cases hpoll
    rw [hclient, hstate] at hdown
    cases hdown
  · intro hok
    obtain ⟨w₁, hflush, hflushes⟩ := flush_of_not_flushFails hw hok
    have hs₁ := (hflushes.refines hw.sound).sound
    have hstate₁ : w₁.client.state = .mqttDisconnecting := by
      rw [hflushes.client_eq]
      exact hstate
    obtain ⟨close, hcore⟩ := corePoll_closes hs₁ hstate₁
    refine ⟨.ok (), w₁.dropped close, ?_, rfl, ?_⟩
    · unfold poll
      rw [Prog.bind_of_ok hflush, Prog.bind_of_ok hcore]
      rfl
    · rw [← hflushes.closes_eq]
      rfl

/-! ## Timing out -/

/-- The clock shows `time`, and nothing the library calls in a poll sets it back. -/
structure Setup.KeepsTime (s : Setup σ) (time : σ → UInt64) : Prop where
  now : ∀ f, s.nowMs = some f → ∀ env, (f env).1 = time env
  read : ∀ f, s.transport.read = some f → ∀ env len, time env ≤ time (f env len).2
  write : ∀ f, s.transport.write = some f → ∀ env data, time env ≤ time (f env data).2

/-- The clock reading made when the transport last connected. -/
def connectedAt (trace : List Event) : Option UInt64 :=
  match (sinceOpen trace).getLast? with
  | some (.now ms) => some ms
  | _ => none

/-- Waiting for CONNACK, the time noted is that at which the transport connected. -/
def Link.Timed (l : Link) : Prop :=
  l.state = .mqttConnectSent → (sinceOpen l.trace).getLast? = some (.now l.stamp)

theorem getLast?_cons_of_some {e x : Event} {t : List Event} (h : t.getLast? = some x) :
    (e :: t).getLast? = some x := by
  rw [List.getLast?_cons, h]
  rfl

theorem timed_step {l l' : Link} (hstep : Link.Step l l') (hl : l.Timed) : l'.Timed := by
  intro hs
  cases hstep with
  | opened ms => rfl
  | noted ms hne => exact absurd hs hne
  | init | connectCall | disconnectCall | openFailed | openMissing | awaitFailed | rejected
  | accepted | timedOut | closed => simp [Link.fresh] at hs
  | openBlocked status hc =>
    rw [hc] at hs
    cases hs
  | read len res held' hest =>
    rcases hest with h | h <;> simp [h] at hs
  | message topic payload hest =>
    rcases hest with h | h <;> simp [h] at hs
  | consumed held' hest =>
    rcases hest with h | h <;> simp [h] at hs
  | clock | flushFailed | flushed | encodeFailed | connectRefused | awaiting =>
    exact getLast?_cons_of_some (hl hs)
  | sendRefused | sendFailed =>
    exact getLast?_cons_of_some (getLast?_cons_of_some (hl hs))
  | sent =>
    exact getLast?_cons_of_some (getLast?_cons_of_some (getLast?_cons_of_some (hl hs)))

theorem connectedAt_eq {w : World σ} (h : Reachable w)
    (hstate : w.client.state = .mqttConnectSent) :
    connectedAt w.trace = some w.client.lastActivityMs := by
  have htimed := h.invariant (P := Link.Timed) (fun _ _ _ hs => by cases hs) timed_step
  have hlast : (sinceOpen w.trace).getLast? = some (.now w.client.lastActivityMs) := htimed hstate
  rw [connectedAt, hlast]

/-- A poll leaves `MQTT_CONNECT_SENT`: for `DISCONNECTED`, or because an acceptable CONNACK was read
in it. In that case the connection stands, unless a message that came along made the callback ask
for its end. -/
def LeavesWait (w : World σ) : Prop :=
  ∃ r w', poll w = .ok (r, w') ∧
    (w'.client.state = .disconnected ∨
      w'.link.Established ∧ ∃ len res t n, w.trace <:+ t ∧ .read len res :: t <:+ w'.trace ∧
        connackVerdict w.client.rxBufferSize (w.client.held ++ res.taken) = .accept n)

/-- A flush does not set the clock back. -/
theorem Flushes.time_le {w w' : World σ} {r : Except Status Unit} {time : σ → UInt64}
    (h : Flushes w r w') (ht : w.client.setup.KeepsTime time) : time w.env ≤ time w'.env := by
  cases h with
  | idle hzero => exact UInt64.le_refl _
  | failed write res env hpos hf hcall hres =>
    have := ht.write write hf w.env w.client.staged
    rwa [hcall] at this
  | flushed write res env hpos hf hcall hres hle =>
    have := ht.write write hf w.env w.client.staged
    rwa [hcall] at this

/-- Enough time has passed, whatever time has passed since. -/
theorem timeout_le_of_le {ms t now : UInt64} (h : ms.toNat + 5000 ≤ t.toNat) (hle : t ≤ now) :
    now - ms ≥ connackTimeoutMs := by
  have hle' : t.toNat ≤ now.toNat := UInt64.le_iff_toNat_le.mp hle
  have hsub : (now - ms).toNat = now.toNat - ms.toNat :=
    UInt64.toNat_sub_of_le _ _ (UInt64.le_iff_toNat_le.mpr (by omega))
  refine UInt64.le_iff_toNat_le.mpr ?_
  rw [hsub, show connackTimeoutMs.toNat = 5000 from rfl]
  omega

/-- A poll whose flush goes through leaves the wait, or it has read the clock after a flush and a
read and found it early. -/
theorem leavesWait_or_early {w : World σ} (hw : w.Safe)
    (hstate : w.client.state = .mqttConnectSent) (hok : ¬ FlushFails w) :
    LeavesWait w ∨ ∃ w₁ read res env, clientFlushPending w = .ok (.ok (), w₁) ∧
      Flushes w (.ok ()) w₁ ∧ w₁.client.transport.read = some read ∧
      read w₁.env (w₁.client.rxBufferSize - w₁.client.rxLen) = (res, env) ∧
      Core.poll w₁ = .ok (.ok (), (w₁.afterRead res env).readClock.2) ∧
      ¬ (w₁.afterRead res env).readClock.1 - w.client.lastActivityMs ≥ connackTimeoutMs := by
  obtain ⟨w₁, hflush, hflushes⟩ := flush_of_not_flushFails hw hok
  have href₁ := hflushes.refines hw.sound
  have hw₁ := href₁.safe hw
  have hstate₁ : w₁.client.state = .mqttConnectSent := by
    rw [hflushes.client_eq]
    exact hstate
  have hheld₁ : w₁.client.held = w.client.held := by
    rw [Client.held, hflushes.client_eq]
    rfl
  have hsize₁ : w₁.client.rxBufferSize = w.client.rxBufferSize := by rw [hflushes.client_eq]
  obtain ⟨read, close, res, env, hread, hcall, hturn⟩ := corePoll_waits hw₁.sound hstate₁
  have hfits := hw₁.read_fits hread hcall
  rcases hturn with ⟨hover, -⟩ | ⟨-, r, w₂, hcore, hwaits⟩
  · omega
  have href₂ := hwaits.refines hw₁.sound hstate₁ hfits
  cases hwaits with
  | failed hres => exact Or.inl ⟨_, _, poll_of_coreError hflush hcore, Or.inl rfl⟩
  | rejected status w₂ hres hv hrej =>
    refine Or.inl ⟨_, _, poll_of_coreError hflush hcore, Or.inl ?_⟩
    obtain ⟨c, -, rfl⟩ := hrej
    rfl
  | timedOut hres hv hdue => exact Or.inl ⟨_, _, poll_of_coreError hflush hcore, Or.inl rfl⟩
  | accepted n hres hv hn =>
    obtain ⟨r₃, w₃, hrest⟩ := readAndKeepalive_returns (href₂.safe hw₁) rfl
    obtain ⟨href₃, hest₃⟩ := readAndKeepalive_refines href₂.sound rfl hrest
    have hpoll := poll_of_connected hflush hcore rfl
    rw [hrest] at hpoll
    -- the read that brought the CONNACK is in the trace, whatever the poll did after it
    refine Or.inl ⟨r₃, w₃, hpoll, Or.inr ⟨hest₃, w₁.client.rxBufferSize - w₁.client.rxLen, res,
      w₁.trace, n, href₁.steps.trace_suffix, ?_, ?_⟩⟩
    · refine List.IsSuffix.trans ?_ href₃.steps.trace_suffix
      simp only [World.link, World.stamped, World.readClock]
      split
      · exact List.suffix_refl _
      · exact List.suffix_cons _ _
    · rw [← hsize₁, ← hheld₁, ← hw₁.sound.held_received res]
      exact hv
  | waiting hres hv hearly =>
    refine Or.inr ⟨w₁, read, res, env, hflush, hflushes, hread, hcall, hcore, ?_⟩
    have hstamp₁ : w₁.client.lastActivityMs = w.client.lastActivityMs := by
      rw [hflushes.client_eq]
    rw [← hstamp₁]
    exact hearly

/-- The clock is read off when there is one. -/
theorem World.Safe.readClock_eq {w : World σ} (hw : w.Safe)
    (hstate : w.client.state = .mqttConnectSent) :
    ∃ now, w.client.nowMs = some now ∧ ∀ v : World σ, v.client.nowMs = w.client.nowMs →
      v.readClock.1 = (now v.env).1 ∧ v.readClock.2.trace = .now (now v.env).1 :: v.trace := by
  have hequipped := hw.sound.equipped (by rw [hstate]; decide) (by rw [hstate]; decide)
  obtain ⟨now, hnow⟩ := Option.isSome_iff_exists.mp hequipped.2
  refine ⟨now, hnow, fun v hv => ?_⟩
  rw [hnow] at hv
  unfold World.readClock
  rw [hv]
  exact ⟨rfl, rfl⟩

/-- Once the timeout is due, a poll whose flush goes through does not go on waiting. -/
theorem leavesWait_of_late {w : World σ} {time : σ → UInt64} (hw : w.Safe)
    (ht : w.client.setup.KeepsTime time) (hstate : w.client.state = .mqttConnectSent)
    (hlate : w.client.lastActivityMs.toNat + 5000 ≤ (time w.env).toNat) (hok : ¬ FlushFails w) :
    LeavesWait w := by
  rcases leavesWait_or_early hw hstate hok with
    hleaves | ⟨w₁, read, res, env, -, hflushes, hread, hcall, -, hearly⟩
  · exact hleaves
  · -- the clock that says so has been turned back, by the flush or by the read
    obtain ⟨now, hnow, hclock⟩ := hw.readClock_eq hstate
    have hsetup₁ := (hflushes.refines hw.sound).setup
    have ht₁ : w₁.client.setup.KeepsTime time := hsetup₁.symm ▸ ht
    have htime₁ := hflushes.time_le ht
    have htime₂ : time w₁.env ≤ time env := by
      have := ht₁.read read hread w₁.env (w₁.client.rxBufferSize - w₁.client.rxLen)
      rwa [hcall] at this
    obtain ⟨hreading, -⟩ := hclock (w₁.afterRead res env) (congrArg Setup.nowMs hsetup₁)
    have hshown : (now (w₁.afterRead res env).env).1 = time env := ht.now now hnow env
    refine absurd ?_ hearly
    rw [hreading, hshown]
    exact timeout_le_of_le hlate (UInt64.le_trans htime₁ htime₂)

/-- The first reading of the clock that a poll makes, if it makes one, shows `due` or more. -/
def ReadsLate (w : World σ) (due : Nat) : Prop :=
  ∀ r w' t ms past, poll w = .ok (r, w') → w'.trace = t ++ .now ms :: (past ++ w.trace) →
    (∀ earlier, .now earlier ∉ past) → due ≤ ms.toNat

/-- A flush writes, and asks for nothing else. -/
theorem Flushes.trace_append {w w' : World σ} {r : Except Status Unit} (h : Flushes w r w') :
    ∃ t, w'.trace = t ++ w.trace ∧ ∀ ms, .now ms ∉ t := by
  cases h with
  | idle hzero => exact ⟨[], rfl, by simp⟩
  | failed write res env => exact ⟨[_], rfl, by simp⟩
  | flushed write res env => exact ⟨[_], rfl, by simp⟩

/-- It does not matter whether the timeout was due before the poll or fell due in it. -/
theorem leavesWait_of_readsLate {w : World σ} (hw : w.Safe)
    (hstate : w.client.state = .mqttConnectSent)
    (hlate : ReadsLate w (w.client.lastActivityMs.toNat + 5000)) (hok : ¬ FlushFails w) :
    LeavesWait w := by
  rcases leavesWait_or_early hw hstate hok with
    hleaves | ⟨w₁, read, res, env, hflush, hflushes, -, -, hcore, hearly⟩
  · exact hleaves
  · obtain ⟨now, -, hclock⟩ := hw.readClock_eq hstate
    have href₁ := hflushes.refines hw.sound
    obtain ⟨hreading, htrace⟩ := hclock (w₁.afterRead res env) (congrArg Setup.nowMs href₁.setup)
    obtain ⟨r, w', hpoll⟩ := poll_returns hw
    -- what the poll does after the wait is on top of the wait's reading
    have hsuffix : (w₁.afterRead res env).readClock.2.trace <:+ w'.trace := by
      have href₂ := corePoll_refines href₁.sound hcore
      rcases poll_cases hpoll with ⟨e, hflush', -⟩ | ⟨v₁, hflush', hrest⟩
      · rw [hflush] at hflush'
        cases hflush'
      · rw [hflush] at hflush'
        cases hflush'
        rcases hrest with ⟨e, hcore', -⟩ | ⟨v₂, hcore', hrest⟩
        · rw [hcore] at hcore'
          cases hcore'
        · rw [hcore] at hcore'
          cases hcore'
          rcases hrest with ⟨hstate₂, hsend⟩ | ⟨hstate₂, hread⟩ | ⟨-, -, -, rfl⟩
          · exact (pollConnectSent_refines href₂.sound hstate₂ hsend).steps.trace_suffix
          · exact (readAndKeepalive_refines href₂.sound hstate₂ hread).1.steps.trace_suffix
          · exact List.suffix_refl _
    obtain ⟨t, ht⟩ := hsuffix
    obtain ⟨past, hpast, hnone⟩ := hflushes.trace_append
    refine absurd ?_ hearly
    rw [hreading]
    refine timeout_le_of_le (hlate r w' t _
      (.read (w₁.client.rxBufferSize - w₁.client.rxLen) res :: past) hpoll ?_ ?_) (UInt64.le_refl _)
    · rw [← ht, htrace]
      show _ = t ++ .now _ :: (.read _ res :: (past ++ w.trace))
      rw [← hpast]
      rfl
    · intro earlier hmem
      rcases List.mem_cons.mp hmem with heq | hmem
      · cases heq
      · exact hnone earlier hmem

/-- No flush, no wait. -/
theorem not_leavesWait_of_flushFails {w : World σ} (hw : w.Safe)
    (hstate : w.client.state = .mqttConnectSent) (hfails : FlushFails w) : ¬ LeavesWait w := by
  rintro ⟨r, w', hpoll, hleft⟩
  obtain ⟨status, w'', hpoll', hclient, -⟩ := poll_of_flushFails hw.sound hfails
  rw [hpoll'] at hpoll
  cases hpoll
  simp [Link.Established, World.link, hclient, hstate] at hleft

/-- **Teardown and timeout.** A poll in `MQTT_DISCONNECTING` tears the connection down, and a poll
in `MQTT_CONNECT_SENT` 5000 ms or more after the transport connected leaves that state, exactly when
the flush they begin with does not fail. The 5000 ms may have passed when the poll begins, or by the
time it reads the clock. -/
theorem teardown_iff {w : World σ} (h : Reachable w) (hc : w.client.setup.Contract) :
    (w.client.state = .mqttDisconnecting → (TearsDown w ↔ ¬ FlushFails w)) ∧
    (∀ time ms, w.client.setup.KeepsTime time → w.client.state = .mqttConnectSent →
      connectedAt w.trace = some ms → ms.toNat + 5000 ≤ (time w.env).toNat →
      (LeavesWait w ↔ ¬ FlushFails w)) ∧
    ∀ ms, w.client.state = .mqttConnectSent → connectedAt w.trace = some ms →
      ReadsLate w (ms.toNat + 5000) → (LeavesWait w ↔ ¬ FlushFails w) := by
  have hw : w.Safe := ⟨h.sound, hc⟩
  have honly : w.client.state = .mqttConnectSent → LeavesWait w → ¬ FlushFails w :=
    fun hstate hleaves hfails => not_leavesWait_of_flushFails hw hstate hfails hleaves
  refine ⟨tearsDown_iff hw, ?_, ?_⟩
  · intro time ms ht hstate hat hlate
    rw [connectedAt_eq h hstate] at hat
    cases hat
    exact ⟨honly hstate, leavesWait_of_late hw ht hstate hlate⟩
  · intro ms hstate hat hlate
    rw [connectedAt_eq h hstate] at hat
    cases hat
    exact ⟨honly hstate, leavesWait_of_readsLate hw hstate hlate⟩

/-- The clock of a script. Only reading it moves it. -/
theorem Script.keepsTime (tx rx : Fin (2 ^ 64)) (keepaliveMs : UInt64) :
    (Script.config tx rx keepaliveMs (some Script.listen)).client.setup.KeepsTime
      fun s => s.times.headD 0 where
  now f hf env := by
    cases hf
    unfold Script.now
    split
    · next h => simp [h]
    · next h => simp [h]
    · next h => simp [h]
  read f hf env len := by
    cases hf
    unfold Script.read
    split <;> exact UInt64.le_refl _
  write f hf env data := by
    cases hf
    unfold Script.write
    split <;> exact UInt64.le_refl _

/-- A transport whose reads bring nothing and take until the next entry of the clock. -/
def Script.slowly : Transport Script :=
  { Script.transport with
    read := some fun s _ => (⟨ioWouldBlock, []⟩, { s with times := s.times.tail }) }

theorem Script.slowly_honest : Script.slowly.Honest where
  read f hf env len := by
    cases hf
    exact Nat.zero_le _
  write := Script.honest.write

/-- The first reading of a poll can be read off its trace. -/
theorem readsLate_of_trace {w w' : World σ} {r : Except Status Unit} {ms : UInt64}
    {t past : List Event} {due : Nat} (hpoll : poll w = .ok (r, w'))
    (htrace : w'.trace = t ++ .now ms :: (past ++ w.trace)) (hpast : ∀ earlier, .now earlier ∉ past)
    (hdue : due ≤ ms.toNat) : ReadsLate w due := by
  intro r₁ w₁ t₁ ms₁ past₁ hpoll₁ htrace₁ hpast₁
  rw [hpoll] at hpoll₁
  cases hpoll₁
  rw [htrace, ← List.cons_append, ← List.cons_append, ← List.append_assoc, ← List.append_assoc,
    List.append_left_inj] at htrace₁
  -- neither of the two readings is earlier than the other
  rcases List.append_eq_append_iff.mp htrace₁ with ⟨more, -, hmore⟩ | ⟨more, -, hmore⟩
  · cases more with
    | nil =>
      cases hmore
      exact hdue
    | cons e more =>
      obtain ⟨rfl, rfl⟩ := List.cons_eq_cons.mp hmore
      exact absurd (List.mem_append_right more List.mem_cons_self) (hpast ms₁)
  · cases more with
    | nil =>
      cases hmore
      exact hdue
    | cons e more =>
      obtain ⟨rfl, rfl⟩ := List.cons_eq_cons.mp hmore
      exact absurd (List.mem_append_right more List.mem_cons_self) (hpast₁ ms)

/-- When the flush of a script fails. -/
theorem Script.flushFails_iff {w : World Script} (h : w.client.transport = Script.transport) :
    FlushFails w ↔
      0 < w.client.txPendingLen ∧ HardError (Script.write w.env w.client.staged).1.status := by
  unfold FlushFails
  rw [h]
  constructor
  · rintro ⟨hpos, write, hf, hres⟩
    cases hf
    exact ⟨hpos, hres⟩
  · rintro ⟨hpos, hres⟩
    exact ⟨hpos, _, rfl, hres⟩

/-- A CONNACK that does not come, with nine bytes of CONNECT staged that the transport will not
take; a teardown with a publish staged; and a CONNACK whose time runs out during a read. -/
theorem teardown_blocked :
    (∃ w : World Script, connectedAt w.trace = some 7 ∧ 0 < w.client.txPendingLen ∧
      LeavesWait w) ∧
    (∃ w : World Script, 0 < w.client.txPendingLen ∧ TearsDown w) ∧
    ∃ w : World Script, connectedAt w.trace = some 7 ∧ w.env.times = [10, 5007] ∧
      LeavesWait w := by
  refine ⟨?_, ?_, ?_⟩
  · -- CONNECT is half sent and the transport blocks: the flush reports success and the wait ends
    obtain ⟨w, hr, hsetup, hstate, hat, hpos, hlate, hblocked⟩ := exists_reachable
      (P := fun w => w.client.state = .mqttConnectSent ∧ connectedAt w.trace = some 7 ∧
        0 < w.client.txPendingLen ∧ (7 : UInt64).toNat + 5000 ≤ (w.env.times.headD 0).toNat ∧
        ¬ HardError (Script.write w.env w.client.staged).1.status)
      (Script.config 64 64 60000 (some Script.listen))
      ⟨[], [], [⟨statusOk, 5⟩, ⟨ioWouldBlock, 0⟩], [0, 7, 5007]⟩
      [.request .connect, .poll] (by decide) (by decide +kernel)
    have hfails : ¬ FlushFails w := fun hf =>
      hblocked ((Script.flushFails_iff (congrArg Setup.transport hsetup)).mp hf).2
    have hc : w.client.setup.Contract := by
      rw [hsetup]
      exact Script.contract 64 64 60000
    have ht : w.client.setup.KeepsTime fun s => s.times.headD 0 := by
      rw [hsetup]
      exact Script.keepsTime 64 64 60000
    exact ⟨w, hat, hpos, ((teardown_iff hr hc).2.1 _ 7 ht hstate hat hlate).mpr hfails⟩
  · -- a PUBLISH is staged behind a blocked transport: the teardown does not wait for it
    obtain ⟨w, hr, hsetup, hstate, hpos, hok⟩ := exists_reachable
      (P := fun w => w.client.state = .mqttDisconnecting ∧ 0 < w.client.txPendingLen ∧
        ¬ HardError (Script.write w.env w.client.staged).1.status)
      (Script.config 64 64 60000 (some Script.listen))
      ⟨[], [⟨statusOk, [0x20, 2, 0, 0]⟩], [⟨statusOk, 14⟩, ⟨ioWouldBlock, 0⟩], []⟩
      [.request .connect, .poll, .poll, Script.publishA [1], .request .disconnect] (by decide)
      (by decide +kernel)
    have hfails : ¬ FlushFails w := fun hf =>
      hok ((Script.flushFails_iff (congrArg Setup.transport hsetup)).mp hf).2
    have hc : w.client.setup.Contract := by
      rw [hsetup]
      exact Script.contract 64 64 60000
    exact ⟨w, hpos, ((teardown_iff hr hc).1 hstate).mpr hfails⟩
  · -- the deadline passes only during the read: the poll starts at 10
    obtain ⟨w, hr, hsetup, hstate, hat, htimes, hzero, htrace⟩ := exists_reachable
      (P := fun w => w.client.state = .mqttConnectSent ∧ connectedAt w.trace = some 7 ∧
        w.env.times = [10, 5007] ∧ w.client.txPendingLen = 0 ∧
        (poll w).toOption.map (fun q => q.2.trace) =
          some ([.disconnect statusOk] ++ .now 5007 :: ([.read 64 ⟨ioWouldBlock, []⟩] ++ w.trace)))
      { Script.config 64 64 60000 (some Script.listen) with transport := Script.slowly }
      ⟨[], [], [], [0, 7, 10, 5007]⟩ [.request .connect, .poll] (by decide) (by decide +kernel)
    have hc : w.client.setup.Contract := by
      rw [hsetup]
      exact ⟨Script.slowly_honest, (Script.contract 64 64 60000).onMessage⟩
    have hfails : ¬ FlushFails w := fun hf => absurd hf.1 (by omega)
    obtain ⟨r, w', hpoll⟩ := poll_returns ⟨hr.sound, hc⟩
    rw [hpoll] at htrace
    have hlate : ReadsLate w ((7 : UInt64).toNat + 5000) :=
      readsLate_of_trace hpoll (Option.some.inj htrace) (by simp) (by decide)
    exact ⟨w, hat, htimes, ((teardown_iff hr hc).2.2 7 hstate hat hlate).mpr hfails⟩

/-- The publish is staged and the peer is gone: the flush fails with a hard error, and the poll
returns before the handler that would close the transport. -/
theorem teardown_stuck :
    ∃ w : World Script, Reachable w ∧ w.client.setup.Contract ∧
      w.client.state = .mqttDisconnecting ∧
      ∃ status w', poll w = .ok (.error status, w') ∧ w'.client.state = .mqttDisconnecting ∧
        closes w'.trace = closes w.trace := by
  obtain ⟨w, hr, hsetup, hstate, hpos, hres⟩ := exists_reachable
    (P := fun w => w.client.state = .mqttDisconnecting ∧ 0 < w.client.txPendingLen ∧
      HardError (Script.write w.env w.client.staged).1.status)
    (Script.config 64 64 60000 (some Script.listen))
    ⟨[], [⟨statusOk, [0x20, 2, 0, 0]⟩],
      [⟨statusOk, 14⟩, ⟨ioWouldBlock, 0⟩, ⟨Script.ioError, 0⟩], []⟩
    [.request .connect, .poll, .poll, Script.publishA [1], .request .disconnect] (by decide)
    (by decide +kernel)
  have hfails : FlushFails w :=
    (Script.flushFails_iff (congrArg Setup.transport hsetup)).mpr ⟨hpos, hres⟩
  obtain ⟨status, w', hpoll, hclient, res, htrace⟩ := poll_of_flushFails hr.sound hfails
  refine ⟨w, hr, ?_, hstate, status, w', hpoll, by rw [hclient]; exact hstate, ?_⟩
  · rw [hsetup]
    exact Script.contract 64 64 60000
  · rw [htrace]
    rfl

end Aemlib
