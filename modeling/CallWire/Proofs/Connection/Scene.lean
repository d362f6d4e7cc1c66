import CallWire.Proofs.Pending.Race

/-!
# CallWire.Proofs.Connection.Scene — a connection that several threads use

To start a call takes several critical sections, on the state of the connection and on the table
of its calls, and to end the connection takes some more.  Replies, cancellations and whatever else
happens on the connection can come between any two of them.
-/

namespace CallWire

def PendingCall.entry (call : PendingCall) : Entry := ⟨call.sequence, call.command, call.slot⟩

/-- The state of `startCall` in one thread. -/
inductive Phase
  | checked
  | registered (call : PendingCall)
  /-- The request was not queued, and the entry is to be removed. -/
  | refused (call : PendingCall) (e : RpcError)
  | ended (result : Except RpcError PendingCall)

/-- The entry registered and not removed. -/
def Phase.entry? : Phase → Option Entry
  | .registered call | .refused call _ | .ended (.ok call) => some call.entry
  | .checked | .ended (.error _) => none

/-- A thread in `startCall`. -/
structure Start where
  command : UInt32
  type : PayloadType
  payload : Bytes
  phase : Phase := .checked

/-- A connection used by several threads. -/
structure Scene where
  /-- The connection; its calls are those of `race`. -/
  shell : Connection
  race : Race := {}
  starts : List Start := []
  /-- The connection is closed and its table not drained yet. -/
  isEnding : Bool := false

namespace Connection

variable {service : Service} {c : Connection} {command : UInt32} {type : PayloadType}
  {payload : Bytes} {calls : Calls}

theorem register_of_error {e : RpcError}
    (h : c.calls.register service.config.maxPending command = (.error e, calls)) :
    c.register service command type payload = (.error e, { c with calls }) := by
  simp only [register, h]

theorem register_of_queued {sequence : UInt32} {slot : Nat} {c' : Connection}
    (h : c.calls.register service.config.maxPending command = (.ok (sequence, slot), calls))
    (hqueued : { c with calls }.enqueue (Frame.image (.request command sequence) payload) =
      (.ok (), c')) :
    c.register service command type payload = (.ok { command, sequence, slot, type }, c') := by
  simp only [register, h, hqueued]

theorem register_of_refused {sequence : UInt32} {slot : Nat} {c' : Connection} {e : RpcError}
    (h : c.calls.register service.config.maxPending command = (.ok (sequence, slot), calls))
    (hrefused : { c with calls }.enqueue (Frame.image (.request command sequence) payload) =
      (.error e, c')) :
    c.register service command type payload =
      (.error e, { c' with calls := c'.calls.forget sequence }) := by
  simp only [register, h, hrefused]

theorem calls_enqueue (frame : Bytes) : (c.enqueue frame).2.calls = c.calls := by
  unfold enqueue
  by_cases hconnected : c.life.isConnected = true
  · rw [if_pos hconnected]
  · rw [if_neg hconnected]

end Connection

namespace Scene

def conn (s : Scene) : Connection := { s.shell with calls := s.race.calls }

/-- The result of `Calls.register` for the thread. -/
def admission (service : Service) (s : Scene) (st : Start) : Phase :=
  match (s.race.calls.register service.config.maxPending st.command).1 with
  | .ok (sequence, slot) => .registered { command := st.command, sequence, slot, type := st.type }
  | .error e => .ended (.error e)

/-- The section of `startCall` that registers the call. -/
def register (service : Service) (s : Scene) (before : List Start) (st : Start)
    (after : List Start) : Scene :=
  { s with
    race := s.race.register service.config.maxPending st.command
    starts := before ++ { st with phase := s.admission service st } :: after }

/-- The section that queues the request. -/
def enqueue (s : Scene) (before : List Start) (st : Start) (after : List Start)
    (call : PendingCall) : Scene :=
  let (result, shell) :=
    s.conn.enqueue (Frame.image (.request call.command call.sequence) st.payload)
  let phase := match result with
    | .ok () => .ended (.ok call)
    | .error e => .refused call e
  { s with shell, starts := before ++ { st with phase } :: after }

/-- The section that removes the entry of a request that was not queued. -/
def forget (s : Scene) (before : List Start) (st : Start) (after : List Start)
    (call : PendingCall) (e : RpcError) : Scene :=
  { s with
    race := s.race.forget call.sequence
    starts := before ++ { st with phase := .ended (.error e) } :: after }

/-- The section of `Connection.finish` that closes the connection. -/
def close (s : Scene) (reason : DisconnectReason) : Scene :=
  match s.conn.life.finish reason with
  | (none, _) => s
  | (some _, life) =>
    { s with shell := { s.shell with life, outbound := s.shell.outbound.stop }, isEnding := true }

/-- The section of `Connection.finish` that drains the table. -/
def drain (s : Scene) : Scene := { s with race := s.race.take .drain, isEnding := false }

/-- A critical section of one thread. Other changes to the connection leave its calls alone and do
not reopen it. -/
inductive Step (service : Service) (s : Scene) : Scene → Prop
  | start {command : UInt32} {types : CommandTypes} {request : Value} {payload : Bytes}
      (h : s.conn.prepareCall service command types request = .ok payload) :
      Step service s { s with starts := s.starts ++ [{ command, type := types.reply, payload }] }
  | register {before after : List Start} {st : Start} (hst : s.starts = before ++ st :: after)
      (hphase : st.phase = .checked) : Step service s (s.register service before st after)
  | enqueue {before after : List Start} {st : Start} {call : PendingCall}
      (hst : s.starts = before ++ st :: after) (hphase : st.phase = .registered call) :
      Step service s (s.enqueue before st after call)
  | forget {before after : List Start} {st : Start} {call : PendingCall} {e : RpcError}
      (hst : s.starts = before ++ st :: after) (hphase : st.phase = .refused call e) :
      Step service s (s.forget before st after call e)
  | number : Step service s { s with race := s.race.number }
  | take {d : Deed} (hd : d ≠ .drain) : Step service s { s with race := s.race.take d }
  | complete {before after : List Party} {p : Party} {e : Entry}
      (hp : s.race.parties = before ++ p :: after) (he : e ∈ p.held) :
      Step service s { s with race := s.race.complete before p after e }
  | wait {i : Nat} {outcome : Outcome} (hnew : ∀ o, (i, o) ∉ s.race.got)
      (hpoll : (s.race.calls.poll i).1 = some outcome) :
      Step service s { s with race := s.race.wait i outcome }
  | close (reason : DisconnectReason) : Step service s (s.close reason)
  | drain (h : s.isEnding = true) : Step service s s.drain
  | other {shell : Connection} (h : s.conn.life.state = .closed → shell.life.state = .closed) :
      Step service s { s with shell }

def Reachable (service : Service) (s : Scene) : Prop :=
  ∃ shell, Relation.ReflTransGen (Step service) { shell } s

/-! ### Without interruption -/

variable {service : Service} {s : Scene}

theorem exists_run_register (service : Service) (s : Scene) {before : List Start} {st : Start}
    (hst : s.starts = before ++ [st]) (hphase : st.phase = .checked) :
    ∃ s' st', Relation.ReflTransGen (Step service) s s' ∧ s'.starts = before ++ [st'] ∧
      st'.phase = .ended (s.conn.register service st.command st.type st.payload).1 ∧
      s'.conn = (s.conn.register service st.command st.type st.payload).2 ∧
      s'.race.parties = s.race.parties := by
  let s₁ : Scene := s.register service before st []
  have hstep : Step service s s₁ := .register hst hphase
  have hcalls : s₁.race.calls =
      (s.race.calls.register service.config.maxPending st.command).2 := s.race.calls_register _ _
  have hparties : s₁.race.parties = s.race.parties := s.race.parties_register _ _
  -- The table refuses the call, or the queue its request, or neither: one, three or two sections.
  rcases hregister : s.race.calls.register service.config.maxPending st.command with
    ⟨e | ⟨sequence, slot⟩, calls⟩
  · have hst₁ : s₁.starts = before ++ [{ st with phase := .ended (.error e) }] := by
      show before ++ [{ st with phase := s.admission service st }] = _
      unfold admission
      rw [hregister]
    rw [Connection.register_of_error hregister]
    refine ⟨s₁, _, .single hstep, hst₁, rfl, ?_, hparties⟩
    unfold conn
    rw [hcalls, hregister]
    rfl
  · let call : PendingCall := { command := st.command, sequence, slot, type := st.type }
    let st₁ : Start := { st with phase := .registered call }
    have hst₁ : s₁.starts = before ++ [st₁] := by
      show before ++ [{ st with phase := s.admission service st }] = _
      unfold admission
      rw [hregister]
    have hconn₁ : s₁.conn = { s.conn with calls } := by
      unfold conn
      rw [hcalls, hregister]
      rfl
    let s₂ : Scene := s₁.enqueue before st₁ [] call
    have henqueue : Step service s₁ s₂ := .enqueue hst₁ rfl
    have hkept := Connection.calls_enqueue (c := s₁.conn)
      (Frame.image (.request st.command sequence) st.payload)
    rcases hresult : s₁.conn.enqueue (Frame.image (.request st.command sequence) st.payload) with
      ⟨e | ⟨⟩, c⟩
    · have hs₂ : s₂ = { s₁ with
          shell := c, starts := before ++ [{ st with phase := .refused call e }] } := by
        show s₁.enqueue before st₁ [] call = _
        unfold enqueue
        rw [show s₁.conn.enqueue (Frame.image (.request call.command call.sequence) st₁.payload) = _
          from hresult]
      rw [Connection.register_of_refused hregister (hconn₁ ▸ hresult)]
      rw [hresult] at hkept
      have hst₂ : s₂.starts = before ++ [{ st with phase := .refused call e }] := by rw [hs₂]
      have hparties₂ : s₂.race.parties = s.race.parties := by rw [hs₂, ← hparties]
      refine ⟨_, _, .head hstep (.head henqueue (.single (.forget hst₂ rfl))), rfl, rfl, ?_,
        hparties₂⟩
      have hrace : (s₂.forget before { st with phase := .refused call e } [] call e).race.calls =
          c.calls.forget sequence := by
        rw [hs₂, show c.calls = s₁.race.calls from hkept]
        rfl
      unfold conn
      rw [hrace, hs₂]
      rfl
    · have hs₂ : s₂ = { s₁ with
          shell := c, starts := before ++ [{ st with phase := .ended (.ok call) }] } := by
        show s₁.enqueue before st₁ [] call = _
        unfold enqueue
        rw [show s₁.conn.enqueue (Frame.image (.request call.command call.sequence) st₁.payload) = _
          from hresult]
      rw [Connection.register_of_queued hregister (hconn₁ ▸ hresult)]
      rw [hresult] at hkept
      refine ⟨s₂, { st with phase := .ended (.ok call) }, .head hstep (.single henqueue), ?_, rfl, ?_,
        ?_⟩
      · rw [hs₂]
      · rw [hs₂]
        unfold conn
        rw [show s₁.race.calls = c.calls from hkept.symm]
      · rw [hs₂, ← hparties]

theorem exists_run_startCall {command : UInt32} {types : CommandTypes} {request : Value}
    {payload : Bytes} (h : s.conn.prepareCall service command types request = .ok payload) :
    ∃ s' st', Relation.ReflTransGen (Step service) s s' ∧ s'.starts = s.starts ++ [st'] ∧
      st'.phase = .ended (s.conn.startCall service command types request).1 ∧
      s'.conn = (s.conn.startCall service command types request).2 ∧
      s'.race.parties = s.race.parties := by
  unfold Connection.startCall
  rw [h]
  let st : Start := { command, type := types.reply, payload }
  obtain ⟨s', st', hrun, hst', hphase, hconn, hparties⟩ :=
    exists_run_register service { s with starts := s.starts ++ [st] } rfl rfl
  exact ⟨s', st', .head (.start h) hrun, hst', hphase, hconn, hparties⟩

theorem exists_run_finish (s : Scene) (reason : DisconnectReason) :
    ∃ s', Relation.ReflTransGen (Step service) s s' ∧ s'.starts = s.starts ∧
      s'.conn.life = (s.conn.finish reason).life ∧ s'.conn.calls = (s.conn.finish reason).calls := by
  unfold Connection.finish
  rcases hfinish : s.conn.life.finish reason with ⟨_ | reason', life⟩
  · exact ⟨s, .refl, rfl, rfl, rfl⟩
  · let shell := { s.shell with life, outbound := s.shell.outbound.stop }
    have hclose : s.close reason = { s with shell, isEnding := true } := by
      unfold close
      rw [hfinish]
    let rest (r : Race) : Scene := { s with shell, race := r, isEnding := false }
    obtain ⟨r', completed, hrun, -, hcalls, -⟩ :=
      Race.exists_run_completeEach (R := fun r r' => Step service (rest r) (rest r'))
        (fun hp he => .complete hp he) s.race.calls.table.entries (s.race.take .drain) [] rfl
    have hfirst : Step service s { s with shell, isEnding := true } := hclose ▸ .close reason
    have hsecond : Step service { s with shell, isEnding := true } (rest (s.race.take .drain)) :=
      .drain rfl
    refine ⟨rest r', .head hfirst (.head hsecond (hrun.lift rest fun _ _ h => h)), rfl, rfl, ?_⟩
    exact hcalls.trans (congrArg Prod.snd Calls.drain_eq_act.symm)

end Scene

end CallWire
