import CallWire.Proofs.Connection.Reachable
import CallWire.Proofs.Connection.Scene
import CallWire.Proofs.Pending.InUse

/-!
# CallWire.Proofs.Connection.Sending — all of a request or nothing of it

A request is checked, encoded, numbered and queued.  Whatever it fails on, what is in flight, what
was cancelled, what is queued and the state of the connection are what they were: nothing is changed
before the number is given out, and a call that is not queued is taken out of the table again.
-/

namespace CallWire

namespace Connection

variable {service : Service} {c c' : Connection} {command : UInt32} {types : CommandTypes}
  {type : PayloadType} {v : Value} {e : RpcError} {payload : Bytes} {calls : Calls}

/-! ### The checks -/

/-- The checks of a request: passed, or failed with the first error. -/
inductive Checks (service : Service) (c : Connection) (command : UInt32)
    (check : CommandTypes → Except RpcError Unit) (type : PayloadType) (v : Value) :
    Except RpcError Bytes → Prop
  | unknown (hsent : service.protocol.sent.get? command = none) :
      Checks service c command check type v (.error (.unknownCommand command))
  | mistyped {types : CommandTypes} {e : RpcError}
      (hsent : service.protocol.sent.get? command = some types) (hcheck : check types = .error e) :
      Checks service c command check type v (.error e)
  | unconnected {types : CommandTypes} (hsent : service.protocol.sent.get? command = some types)
      (hcheck : check types = .ok ()) (hconnected : c.life.isConnected = false) :
      Checks service c command check type v (.error .notConnected)
  | unencodable {types : CommandTypes} {e : CodecError}
      (hsent : service.protocol.sent.get? command = some types) (hcheck : check types = .ok ())
      (hconnected : c.life.isConnected = true) (hencode : type.encode v = .error e) :
      Checks service c command check type v (.error (.codec e))
  | tooLarge {types : CommandTypes} {payload : Bytes}
      (hsent : service.protocol.sent.get? command = some types) (hcheck : check types = .ok ())
      (hconnected : c.life.isConnected = true) (hencode : type.encode v = .ok payload)
      (hlong : service.config.maxPayloadLength < payload.length) :
      Checks service c command check type v
        (.error (.frameTooLarge payload.length service.config.maxPayloadLength))
  | passes {types : CommandTypes} {payload : Bytes}
      (hsent : service.protocol.sent.get? command = some types) (hcheck : check types = .ok ())
      (hconnected : c.life.isConnected = true) (hencode : type.encode v = .ok payload)
      (hlength : payload.length ≤ service.config.maxPayloadLength) :
      Checks service c command check type v (.ok payload)

theorem checks_of_check (service : Service) (c : Connection) (command : UInt32)
    (check : CommandTypes → Except RpcError Unit) (type : PayloadType) (v : Value) :
    Checks service c command check type v (do
      check (← service.protocol.sentTypes command)
      c.requireConnected
      requestPayload service type v) := by
  unfold Protocol.sentTypes
  rcases hsent : service.protocol.sent.get? command with _ | types
  · exact .unknown hsent
  · show Checks service c command check type v (do
      check types
      c.requireConnected
      requestPayload service type v)
    rcases hcheck : check types with e | ⟨⟩
    · exact .mistyped hsent hcheck
    · show Checks service c command check type v (do
        c.requireConnected
        requestPayload service type v)
      unfold requireConnected requestPayload
      by_cases hconnected : c.life.isConnected = true
      · rw [if_pos hconnected]
        rcases hencode : type.encode v with e | payload
        · exact .unencodable hsent hcheck hconnected hencode
        · show Checks service c command check type v (do
            FrameDecoder.checkLength service.config.maxPayloadLength payload.length
            return payload)
          unfold FrameDecoder.checkLength
          by_cases hlong : payload.length > service.config.maxPayloadLength
          · rw [if_pos hlong]
            exact .tooLarge hsent hcheck hconnected hencode hlong
          · rw [if_neg hlong]
            exact .passes hsent hcheck hconnected hencode (Nat.le_of_not_lt hlong)
      · rw [if_neg hconnected]
        exact .unconnected hsent hcheck (Bool.eq_false_iff.mpr hconnected)

theorem checks_prepareCall (service : Service) (c : Connection) (command : UInt32)
    (types : CommandTypes) (v : Value) :
    Checks service c command (·.check command types) types.request v
      (c.prepareCall service command types v) :=
  checks_of_check service c command (·.check command types) types.request v

theorem checks_prepareOneWay (service : Service) (c : Connection) (command : UInt32)
    (type : PayloadType) (v : Value) :
    Checks service c command (·.checkRequest command type) type v
      (c.prepareOneWay service command type v) :=
  checks_of_check service c command (·.checkRequest command type) type v

/-! ### What is left behind -/

/-- Between `c` and `c'` these entries were registered and these frames queued; apart from that only
the counter and the slots may differ. -/
structure Leaves (c c' : Connection) (entries : List Entry) (frames : List Bytes) : Prop where
  entries : c'.calls.table.entries = entries ++ c.calls.table.entries
  cancelled : c'.calls.table.cancelled = c.calls.table.cancelled
  isClosed : c'.calls.table.isClosed = c.calls.table.isClosed
  slots : c.calls.slots <+: c'.calls.slots
  outbound : c'.outbound = { c.outbound with queue := c.outbound.queue ++ frames }
  life : c'.life = c.life
  others : c' = { c with calls := c'.calls, outbound := c'.outbound }

theorem leaves_nothing (hentries : calls.table.entries = c.calls.table.entries)
    (hcancelled : calls.table.cancelled = c.calls.table.cancelled)
    (hclosed : calls.table.isClosed = c.calls.table.isClosed)
    (hslots : c.calls.slots <+: calls.slots) : c.Leaves { c with calls } [] [] where
  entries := hentries
  cancelled := hcancelled
  isClosed := hclosed
  slots := hslots
  outbound := by rw [List.append_nil]
  life := rfl
  others := rfl

theorem Leaves.refl (c : Connection) : c.Leaves c [] [] :=
  leaves_nothing rfl rfl rfl (List.prefix_refl _)

theorem leaves_queued {entries : List Entry} {frame : Bytes}
    (hentries : calls.table.entries = entries ++ c.calls.table.entries)
    (hcancelled : calls.table.cancelled = c.calls.table.cancelled)
    (hclosed : calls.table.isClosed = c.calls.table.isClosed)
    (hslots : c.calls.slots <+: calls.slots) :
    c.Leaves ({ c with calls }.queued frame) entries [frame] where
  entries := hentries
  cancelled := hcancelled
  isClosed := hclosed
  slots := hslots
  outbound := rfl
  life := rfl
  others := rfl

/-! ### Calls -/

/-- The cases of `startCall`. -/
inductive Starts (service : Service) (c : Connection) (command : UInt32) (types : CommandTypes)
    (v : Value) : Except RpcError PendingCall × Connection → Prop
  | refused {e : RpcError}
      (hrefused : Checks service c command (·.check command types) types.request v (.error e)) :
      Starts service c command types v (.error e, c)
  /-- The table refuses the call. -/
  | declined {payload : Bytes} {e : RpcError}
      (hpasses : Checks service c command (·.check command types) types.request v (.ok payload))
      (hrefusal : c.calls.table.refusal? service.config.maxPending = some e) :
      Starts service c command types v (.error e, c)
  /-- The queue refuses the frame, and the entry is removed again. -/
  | unqueued {frame : Bytes} {e : RpcError} {c' : Connection}
      (hqueue : c.Enqueues frame (.error e, c)) (hleaves : c.Leaves c' [] []) :
      Starts service c command types v (.error e, c')
  | queued {payload : Bytes} {call : PendingCall} {c' : Connection}
      (hencode : types.request.encode v = .ok payload) (hcommand : call.command = command)
      (hfree : c.calls.table.isFree call.sequence = true)
      (hleaves : c.Leaves c' [call.entry]
        [Frame.image (.request command call.sequence) payload]) :
      Starts service c command types v (.ok call, c')

theorem register_starts (hconnected : c.life.isConnected = true)
    (hencode : types.request.encode v = .ok payload)
    (hfree : c.calls.table.isFree c.calls.table.allocate.1 = true)
    (hrefusal : c.calls.table.refusal? service.config.maxPending = none) :
    Starts service c command types v (c.register service command types.reply payload) := by
  obtain ⟨e, hrefused, -⟩ | ⟨-, hregister⟩ :=
    c.calls.register_cases service.config.maxPending command
  · rw [hrefusal] at hrefused
    cases hrefused
  let n := c.calls.table.allocate.1
  let slot := c.calls.slots.length
  let calls : Calls :=
    { table := { c.calls.table.allocate.2 with
        entries := ⟨n, command, slot⟩ :: c.calls.table.entries }
      slots := c.calls.slots ++ [.waiting] }
  have hslots : c.calls.slots <+: calls.slots := List.prefix_append _ _
  -- To forget the call gives the table back, except for the number that was used up.
  have hforget : (calls.forget n).table = c.calls.table.allocate.2 :=
    congrArg Prod.snd (PendingTable.remove_cons (t := c.calls.table.allocate.2) hfree)
  let frame := Frame.image (.request command n) payload
  have henqueues := enqueue_enqueues { c with calls } frame
  rcases hqueued : { c with calls }.enqueue frame with ⟨result, c₁⟩
  rw [hqueued] at henqueues
  have hunqueued {e : RpcError} (hc₁ : c₁ = { c with calls }) (hresult : result = .error e)
      (hqueue : c.Enqueues frame (.error e, c)) :
      Starts service c command types v (c.register service command types.reply payload) := by
    rw [register_of_refused hregister (hresult ▸ hqueued), hc₁]
    have hentries := congrArg PendingTable.entries hforget
    have hcancelled := congrArg PendingTable.cancelled hforget
    have hclosed := congrArg PendingTable.isClosed hforget
    exact .unqueued hqueue (leaves_nothing hentries hcancelled hclosed hslots)
  cases henqueues with
  | unconnected hover => exact absurd (hconnected.symm.trans hover) nofun
  | done _ hdone => exact hunqueued rfl rfl (.done hconnected hdone)
  | full _ hdone hroom => exact hunqueued rfl rfl (.full hconnected hdone hroom)
  | queues _ hdone hroom =>
    rw [register_of_queued hregister hqueued]
    exact .queued hencode rfl hfree (leaves_queued rfl rfl rfl hslots)

theorem startCall_starts (hends : ∀ payload, c.prepareCall service command types v = .ok payload →
      c.calls.Ends (.register service.config.maxPending command)) :
    Starts service c command types v (c.startCall service command types v) := by
  have hchecks := checks_prepareCall service c command types v
  unfold startCall
  generalize c.prepareCall service command types v = prepared at hends hchecks ⊢
  rcases prepared with e | payload
  · exact .refused hchecks
  · dsimp only
    rcases hrefusal : c.calls.table.refusal? service.config.maxPending with _ | e
    · cases hchecks with
      | passes hsent hcheck hconnected hencode hlength =>
        exact register_starts hconnected hencode (PendingTable.isFree_allocate (hends payload rfl hrefusal))
          hrefusal
    · obtain ⟨e', hrefused, hregister⟩ | ⟨hnone, -⟩ :=
        c.calls.register_cases service.config.maxPending command
      · obtain rfl : e' = e := Option.some.inj (hrefused.symm.trans hrefusal)
        rw [register_of_error hregister]
        exact .declined hchecks hrefusal
      · rw [hrefusal] at hnone
        cases hnone

/-! ### Requests that are not answered -/

/-- The cases of `sendOneWay`. -/
inductive SendsOneWay (service : Service) (c : Connection) (command : UInt32) (type : PayloadType)
    (v : Value) : Except RpcError Unit × Connection → Prop
  | refused {e : RpcError}
      (hrefused : Checks service c command (·.checkRequest command type) type v (.error e)) :
      SendsOneWay service c command type v (.error e, c)
  /-- The queue refuses the frame; the number is used up. -/
  | unqueued {frame : Bytes} {e : RpcError} {c' : Connection}
      (hqueue : c.Enqueues frame (.error e, c)) (hleaves : c.Leaves c' [] []) :
      SendsOneWay service c command type v (.error e, c')
  | queued {payload : Bytes} {n : UInt32} {c' : Connection}
      (hencode : type.encode v = .ok payload)
      (hfree : c.calls.Ends .nextSequence → c.calls.table.isFree n = true)
      (hleaves : c.Leaves c' [] [Frame.image (.oneWay command n) payload]) :
      SendsOneWay service c command type v (.ok (), c')

theorem sendOneWay_sends (service : Service) (c : Connection) (command : UInt32)
    (type : PayloadType) (v : Value) :
    SendsOneWay service c command type v (c.sendOneWay service command type v) := by
  have hchecks := checks_prepareOneWay service c command type v
  unfold sendOneWay
  generalize c.prepareOneWay service command type v = prepared at hchecks ⊢
  rcases prepared with e | payload
  · exact .refused hchecks
  · cases hchecks with
    | passes hsent hcheck hconnected hencode hlength =>
      let n := c.calls.table.allocate.1
      let calls := c.calls.nextSequence.2
      let frame := Frame.image (.oneWay command n) payload
      show SendsOneWay service c command type v ({ c with calls }.enqueue frame)
      have hnothing : c.Leaves { c with calls } [] [] :=
        leaves_nothing rfl rfl rfl (List.prefix_refl _)
      have henqueues := enqueue_enqueues { c with calls } frame
      generalize { c with calls }.enqueue frame = enqueued at henqueues ⊢
      cases henqueues with
      | unconnected hover => exact absurd (hconnected.symm.trans hover) nofun
      | done _ hdone => exact .unqueued (.done hconnected hdone : c.Enqueues frame _) hnothing
      | full _ hdone hroom =>
        exact .unqueued (.full hconnected hdone hroom : c.Enqueues frame _) hnothing
      | queues _ hdone hroom =>
        exact .queued hencode (fun hends => PendingTable.isFree_allocate hends)
          (leaves_queued rfl rfl rfl (List.prefix_refl _))

/-- **A failed send changes nothing.**  A call that cannot be started, and a request that cannot be
sent, leave the calls in flight, the cancelled numbers, the queue and the state of the connection
as they were, and the counter too unless the queue refused the frame.  A call that is started is one
call in flight and one frame more, with the same command and number; a request that is not answered
is one frame more.  (A call that passes the checks while every number is in use would not come to an
end.) -/
theorem failed_send_changes_nothing (service : Service) (c : Connection) (command : UInt32)
    (types : CommandTypes) (type : PayloadType) (v : Value) :
    ((∀ payload, c.prepareCall service command types v = .ok payload →
        c.calls.Ends (.register service.config.maxPending command)) →
      (∀ e c', c.startCall service command types v = (.error e, c') →
        c.Leaves c' [] [] ∧ (c' = c ∧
          (Checks service c command (·.check command types) types.request v (.error e) ∨
            c.calls.table.refusal? service.config.maxPending = some e) ∨
          ∃ frame, c.Enqueues frame (.error e, c))) ∧
      ∀ call c', c.startCall service command types v = (.ok call, c') →
        call.command = command ∧ c.calls.table.isFree call.sequence = true ∧
        ∃ payload, types.request.encode v = .ok payload ∧
          c.Leaves c' [call.entry] [Frame.image (.request command call.sequence) payload]) ∧
    (∀ e c', c.sendOneWay service command type v = (.error e, c') →
      c.Leaves c' [] [] ∧ (c' = c ∧
        Checks service c command (·.checkRequest command type) type v (.error e) ∨
        ∃ frame, c.Enqueues frame (.error e, c))) ∧
    ∀ c', c.sendOneWay service command type v = (.ok (), c') →
      ∃ n payload, (c.calls.Ends .nextSequence → c.calls.table.isFree n = true) ∧
        type.encode v = .ok payload ∧
        c.Leaves c' [] [Frame.image (.oneWay command n) payload] := by
  have hsend := sendOneWay_sends service c command type v
  refine ⟨fun hends => ⟨?_, ?_⟩, ?_, ?_⟩
  · intro e c' heq
    have hcall := startCall_starts hends
    rw [heq] at hcall
    cases hcall with
    | refused hrefused => exact ⟨.refl c, .inl ⟨rfl, .inl hrefused⟩⟩
    | declined _ hrefusal => exact ⟨.refl c, .inl ⟨rfl, .inr hrefusal⟩⟩
    | unqueued hqueue hleaves => exact ⟨hleaves, .inr ⟨_, hqueue⟩⟩
  · intro call c' heq
    have hcall := startCall_starts hends
    rw [heq] at hcall
    cases hcall with
    | queued hencode hcommand hfree hleaves => exact ⟨hcommand, hfree, _, hencode, hleaves⟩
  · intro e c' heq
    rw [heq] at hsend
    cases hsend with
    | refused hrefused => exact ⟨.refl c, .inl ⟨rfl, hrefused⟩⟩
    | unqueued hqueue hleaves => exact ⟨hleaves, .inr ⟨_, hqueue⟩⟩
  · intro c' heq
    rw [heq] at hsend
    cases hsend with
    | queued hencode hfree hleaves => exact ⟨_, _, hfree, hencode, hleaves⟩

/-- With room for one frame, a second call is taken out of the table again, and the first stays. -/
theorem failed_send_changes_nothing_full :
    ∃ (service : Service) (c c' : Connection) (types : CommandTypes), c.Reachable service ∧
      c.calls.table.entries = [⟨1, 7, 0⟩] ∧ c.calls.table.next = 2 ∧
      c.startCall service 7 types .unit = (.error (.queueFull 1), c') ∧ c'.calls.table.next = 3 ∧
      c'.calls.table.entries = c.calls.table.entries ∧ c'.outbound = c.outbound := by
  let unit : PayloadType := ⟨0, "()", .unit, []⟩
  let types : CommandTypes := ⟨unit, unit⟩
  let service : Service :=
    { protocol := { name := "client", sent := [(7, types)] }, config := { maxQueuedFrames := 1 } }
  let c := (((new service "default").establish true).startCall service 7 types .unit).2
  have hc : c.Reachable service :=
    ⟨_, .tail (.single (.establish _ true rfl)) (.startCall _ 7 types .unit)⟩
  have hentries : c.calls.table.entries = [⟨1, 7, 0⟩] := by rfl
  have hfails : (c.startCall service 7 types .unit).1 = .error (.queueFull 1) := by rfl
  have hends : ∀ payload, c.prepareCall service 7 types .unit = .ok payload →
      c.calls.Ends (.register service.config.maxPending 7) :=
    fun _ _ _ => ⟨2, by decide⟩
  obtain ⟨hfailed, -⟩ := (failed_send_changes_nothing service c 7 types unit .unit).1 hends
  have hstart : c.startCall service 7 types .unit =
      (.error (.queueFull 1), (c.startCall service 7 types .unit).2) := Prod.ext hfails rfl
  obtain ⟨hleaves, -⟩ := hfailed _ _ hstart
  have houtbound := hleaves.outbound
  rw [List.append_nil] at houtbound
  exact ⟨service, c, _, types, hc, hentries, by rfl, hstart, by rfl, hleaves.entries, houtbound⟩

end Connection

end CallWire
