import CallWire.Proofs.Connection.Quiet

/-!
# CallWire.Proofs.Connection.Toggles — stopping events and starting them again

Events are stopped and started by the application and by the handlers themselves.  On a connection
that stays connected a toggle either changes what it is to change or is refused and changes nothing,
so those that succeed alternate.
-/

namespace CallWire

inductive Toggle
  | stop | start
  deriving DecidableEq, Repr

namespace Toggle

/-- Whether events are stopped afterwards. -/
def target : Toggle → Bool
  | stop => true
  | start => false

/-- The error when events are already so. -/
def refusal : Toggle → RpcError
  | stop => .invalidArgument "events are already stopped"
  | start => .invalidArgument "events are not stopped"

def perform : Toggle → Connection → Except RpcError Unit × Connection
  | stop, c => c.stopEvents
  | start, c => c.startEvents

theorem perform_eq (t : Toggle) (c : Connection) :
    t.perform c =
      if c.life.isConnected = false then (.error .notConnected, c)
      else if c.eventsStopped = t.target then (.error t.refusal, c)
      else (.ok (), { c with eventsStopped := t.target }) := by
  cases t with
  | stop =>
    show c.stopEvents = _
    unfold Connection.stopEvents
    simp only [Bool.not_eq_true']
    rfl
  | start =>
    show c.startEvents = _
    unfold Connection.startEvents
    simp only [Bool.not_eq_true']
    rfl

theorem perform_cases (t : Toggle) {c : Connection} (hconnected : c.life.isConnected = true) :
    (t.target ≠ c.eventsStopped ∧ t.perform c = (.ok (), { c with eventsStopped := t.target })) ∨
      t.target = c.eventsStopped ∧ t.perform c = (.error t.refusal, c) := by
  rw [t.perform_eq c, hconnected, if_neg (by decide)]
  by_cases hsame : c.eventsStopped = t.target
  · rw [if_pos hsame]
    exact .inr ⟨hsame.symm, rfl⟩
  · rw [if_neg hsame]
    exact .inl ⟨fun h => hsame h.symm, rfl⟩

theorem perform_of_error (t : Toggle) {c c' : Connection} {e : RpcError}
    (h : t.perform c = (.error e, c')) : c' = c := by
  rw [t.perform_eq c] at h
  split at h
  · cases h
    rfl
  split at h
  · cases h
    rfl
  · cases h

end Toggle

/-- Toggles with their results, oldest first. -/
abbrev ToggleLog := List (Toggle × Except RpcError Unit)

namespace ToggleLog

variable {log log' : ToggleLog} {before between after : Bool}

/-- Toggles that take events from `before` to `after`, each refused if it changes nothing. -/
inductive Leads (before : Bool) : ToggleLog → Bool → Prop
  | nil : Leads before [] before
  | succeeds {log : ToggleLog} {between : Bool} (h : Leads before log between) {t : Toggle}
      (hchanges : t.target ≠ between) : Leads before (log ++ [(t, .ok ())]) t.target
  | fails {log : ToggleLog} {between : Bool} (h : Leads before log between) {t : Toggle}
      (hkeeps : t.target = between) : Leads before (log ++ [(t, .error t.refusal)]) between

theorem Leads.trans (h : Leads before log between) (h' : Leads between log' after) :
    Leads before (log ++ log') after := by
  induction h' with
  | nil =>
    rw [List.append_nil]
    exact h
  | succeeds _ hchanges ih =>
    rw [← List.append_assoc]
    exact ih.succeeds hchanges
  | fails _ hkeeps ih =>
    rw [← List.append_assoc]
    exact ih.fails hkeeps

theorem leads_perform (t : Toggle) {c : Connection} (hconnected : c.life.isConnected = true) :
    Leads c.eventsStopped [(t, (t.perform c).1)] (t.perform c).2.eventsStopped := by
  rcases t.perform_cases hconnected with ⟨hchanges, heq⟩ | ⟨hkeeps, heq⟩
  · rw [heq]
    exact Leads.nil.succeeds hchanges
  · rw [heq]
    exact Leads.nil.fails hkeeps

def done? : Toggle × Except RpcError Unit → Option Toggle
  | (t, .ok ()) => some t
  | (_, .error _) => none

def done (log : ToggleLog) : List Toggle := log.filterMap done?

/-- Starting from events not stopped, the toggles that succeed stop and start in turn, and those
that fail were told that there is nothing to change. -/
structure Alternates (log : ToggleLog) (after : Bool) : Prop where
  turns : ∀ i t, log.done[i]? = some t → t.target = decide (i % 2 = 0)
  count : after = decide (log.done.length % 2 = 1)
  refused : ∀ t e, (t, .error e) ∈ log → e = t.refusal

theorem Leads.alternates (h : Leads false log after) : Alternates log after := by
  induction h with
  | nil => exact ⟨nofun, rfl, nofun⟩
  | @succeeds log between _ t hchanges ih =>
    have hdone : done (log ++ [(t, .ok ())]) = done log ++ [t] := List.filterMap_append
    have htarget : t.target = decide ((done log).length % 2 = 0) := by
      -- A toggle that changes something is the opposite of the last that did.
      have hother : t.target = !between := Bool.eq_not_of_ne hchanges
      rw [hother, ih.count, ← decide_not]
      exact decide_eq_decide.mpr (by omega)
    refine ⟨?_, ?_, ?_⟩
    · intro i t' ht'
      rw [hdone, List.getElem?_append] at ht'
      split at ht'
      · exact ih.turns i t' ht'
      · next hlast =>
        rcases hi : i - (done log).length with _ | k
        · rw [hi] at ht'
          cases ht'
          rw [htarget, show i = (done log).length by omega]
        · rw [hi] at ht'
          cases ht'
    · rw [hdone, List.length_append, List.length_singleton, htarget]
      exact decide_eq_decide.mpr (by omega)
    · intro t' e he
      rcases List.mem_append.mp he with he | he
      · exact ih.refused t' e he
      · cases List.mem_singleton.mp he
  | @fails log between _ t hkeeps ih =>
    have hdone : done (log ++ [(t, .error t.refusal)]) = done log := by
      unfold done
      rw [List.filterMap_append]
      exact List.append_nil _
    refine ⟨hdone ▸ ih.turns, hdone ▸ ih.count, ?_⟩
    intro t' e he
    rcases List.mem_append.mp he with he | he
    · exact ih.refused t' e he
    · cases List.mem_singleton.mp he
      rfl

end ToggleLog

/-! ### The toggles of a handler -/

def Effect.toggle? : Effect → Option Toggle
  | stopEvents => some .stop
  | startEvents => some .start
  | close | notify _ _ _ | call _ _ _ | shutDown => none

namespace Connection

variable {service : Service} {c c' c'' : Connection} {frame : Frame}

/-- The toggles among the effects of a conduct, with their results. -/
def togglesOf {α : Type} (service : Service) (c : Connection) : Conduct α → ToggleLog
  | .done _ => []
  | .act effect next =>
    (effect.toggle?.map (·, (c.act service effect).1)).toList ++
      ((c.act service effect).2.record (.acted (c.act service effect).1)).togglesOf service
        (next (c.act service effect).1
          ((c.act service effect).2.record (.acted (c.act service effect).1)))

/-- The toggles of a handler for this request, those made after it used its handle included. -/
def runToggles (service : Service) (c : Connection) (types : CommandTypes) (header : Header)
    (request : Value) : Handler → ToggleLog
  | .inline run =>
    let c := c.record (.handled types.request request)
    c.togglesOf service (run c request)
  | .deferred run =>
    let handle := ReplyHandle.ofHeader header types.reply
    let (release, answering) := c.runDeferred service types.request request handle run
    let (result, used) := answering.useHandle service handle release.use
    let c := c.record (.deferred types.request request handle)
    c.togglesOf service (run c request handle) ++ used.togglesOf service (release.after result used)

/-- The toggles of the handler that serves the frame. -/
def handlerToggles (service : Service) (c : Connection) (frame : Frame) : ToggleLog :=
  if frame.header.isRequest then
    match handlerFor? service frame with
    | none => []
    | some (entry, request) =>
      c.runToggles service entry.types frame.header request entry.handler
  else []

def Precedes (c c' : Connection) : Prop :=
  c'.life.isConnected = true → c.life.isConnected = true

theorem Precedes.of_life (h : c'.life = c.life) : c.Precedes c' := fun hconnected => h ▸ hconnected

theorem Precedes.of_standing (h : c'.standing = c.standing) : c.Precedes c' :=
  .of_life (congrArg Prod.fst h)

theorem precedes_close (c : Connection) : c.Precedes c.close.2 := by
  unfold close
  rcases c.life.close_cases with ⟨e, h⟩ | ⟨life, h, hclosing⟩
  · rw [h]
    exact id
  · rw [h]
    intro hconnected
    rw [Lifecycle.isConnected, hclosing] at hconnected
    cases hconnected

theorem precedes_allowsHandlers (service : Service) : AllowsHandlers service Precedes where
  refl := fun _ => id
  trans := fun h h' hconnected => h (h' hconnected)
  record := fun _ _ => id
  events := fun _ _ => id
  close := precedes_close
  shutDown := fun _ => id
  oneWay := fun c command type note =>
    .of_standing (sendOneWay_beside service c command type note).2
  call := fun c command types request =>
    .of_standing (startCall_beside service c command types request).2
  keep := fun _ _ => id
  reply := fun c _ _ _ _ => .of_standing (c.enqueue_beside _).2
  error := fun c _ _ _ => .of_standing (c.enqueue_beside _).2

theorem eventsStopped_enqueue (c : Connection) (bytes : Bytes) :
    (c.enqueue bytes).2.eventsStopped = c.eventsStopped := by
  rcases c.enqueue_cases bytes with heq | ⟨-, heq⟩
  · rw [heq]
  · rw [heq]
    rfl

theorem eventsStopped_startCall (service : Service) (c : Connection) (command : UInt32)
    (types : CommandTypes) (request : Value) :
    (c.startCall service command types request).2.eventsStopped = c.eventsStopped := by
  obtain ⟨calls, -, heq | ⟨n, payload, -, hqueued⟩⟩ :=
    c.startCall_cases service command types request
  · rw [heq]
  · have hstopped := eventsStopped_enqueue { c with calls }
      (Frame.image (.request command n) payload)
    rw [hqueued] at hstopped
    exact hstopped

theorem eventsStopped_sendOneWay (service : Service) (c : Connection) (command : UInt32)
    (type : PayloadType) (request : Value) :
    (c.sendOneWay service command type request).2.eventsStopped = c.eventsStopped := by
  rcases c.sendOneWay_cases service command type request with heq | ⟨n, calls, payload, -, -, heq⟩
  · rw [heq]
  · rw [heq]
    exact eventsStopped_enqueue { c with calls } _

theorem eventsStopped_close (c : Connection) : c.close.2.eventsStopped = c.eventsStopped := by
  unfold close
  rcases c.life.close with ⟨e | _, life⟩
  · rfl
  · rfl

theorem eventsStopped_act (service : Service) (c : Connection) {effect : Effect}
    (h : effect.toggle? = none) :
    (c.act service effect).2.eventsStopped = c.eventsStopped := by
  cases effect with
  | stopEvents | startEvents => cases h
  | close => exact c.eventsStopped_close
  | shutDown => exact c.eventsStopped_close
  | notify command type note => exact c.eventsStopped_sendOneWay service command type note
  | call command types request => exact c.eventsStopped_startCall service command types request

theorem act_of_toggle? (service : Service) (c : Connection) {effect : Effect} {t : Toggle}
    (h : effect.toggle? = some t) : c.act service effect = t.perform c := by
  cases effect with
  | stopEvents | startEvents =>
    cases h
    rfl
  | close | notify | call | shutDown => cases h

theorem leads_togglesOf {α : Type} (service : Service) (c : Connection) (conduct : Conduct α)
    (hconnected : (c.carryOut service conduct).2.life.isConnected = true) :
    ToggleLog.Leads c.eventsStopped (c.togglesOf service conduct)
      (c.carryOut service conduct).2.eventsStopped := by
  induction conduct generalizing c with
  | done => exact .nil
  | act effect next ih =>
    let acted := (c.act service effect).2.record (.acted (c.act service effect).1)
    have hact : c.Precedes acted := (precedes_allowsHandlers service).act c effect
    have hrest : acted.Precedes (acted.carryOut service (next (c.act service effect).1 acted)).2 :=
      (precedes_allowsHandlers service).carryOut acted _
    have hlater := ih _ acted acted hconnected
    have hfirst : ToggleLog.Leads c.eventsStopped
        (effect.toggle?.map (·, (c.act service effect).1)).toList acted.eventsStopped := by
      rcases htoggle : effect.toggle? with _ | t
      · have hsame : acted.eventsStopped = c.eventsStopped := eventsStopped_act service c htoggle
        rw [hsame]
        exact .nil
      · have hleads := ToggleLog.leads_perform t (hact (hrest hconnected))
        rw [← act_of_toggle? service c htoggle] at hleads
        exact hleads
    exact hfirst.trans hlater

/-! ### Answers -/

theorem eventsStopped_allowsAnswers (service : Service) :
    AllowsAnswers service fun c c' => c'.eventsStopped = c.eventsStopped where
  refl := fun _ => rfl
  reply := fun c _ _ _ _ => c.eventsStopped_enqueue _
  error := fun c _ _ _ => c.eventsStopped_enqueue _

theorem eventsStopped_useHandle (service : Service) (c : Connection) (handle : ReplyHandle)
    (use : HandleUse) : (c.useHandle service handle use).2.eventsStopped = c.eventsStopped := by
  have hanswers := eventsStopped_allowsAnswers service
  cases use with
  | keep => rfl
  | reply v => exact hanswers.replyValue c handle v
  | replyElsewhere v => exact hanswers.replyValue c handle v
  | error status => exact hanswers.replyError c handle status
  | drop => exact hanswers.dropHandle c handle

theorem sendReply_eventsStopped_life (c : Connection) (reply : Bytes) :
    (c.sendReply reply).eventsStopped = c.eventsStopped ∧ (c.sendReply reply).life = c.life := by
  unfold sendReply
  split
  · exact ⟨rfl, rfl⟩
  · exact ⟨rfl, rfl⟩

/-- Events are after `serve` as the handler left them, and so is the state of the connection. -/
theorem serve_eventsStopped_life (service : Service) (c : Connection)
    (hrequest : frame.header.isRequest = true) :
    (c.serve service frame).2.eventsStopped = (c.answer service frame).2.eventsStopped ∧
      (c.serve service frame).2.life = (c.answer service frame).2.life := by
  rw [serve_of_isRequest service c hrequest]
  rcases replyTo service frame (c.answer service frame).1 with _ | reply
  · exact ⟨rfl, rfl⟩
  · exact (c.answer service frame).2.sendReply_eventsStopped_life reply

theorem leads_runToggles (service : Service) (c : Connection) (entry : HandledCommand)
    (header : Header) (request : Value)
    (hconnected : (c.runHandler service entry header request).2.life.isConnected = true) :
    ToggleLog.Leads c.eventsStopped
      (c.runToggles service entry.types header request entry.handler)
      (c.runHandler service entry header request).2.eventsStopped := by
  unfold runHandler at hconnected ⊢
  rcases hkind : entry.handler with run | run
  · rw [hkind] at hconnected
    exact leads_togglesOf service (c.record _) _ hconnected
  · rw [hkind] at hconnected
    -- Connected at the end, the connection was so when the handle was used.
    let handle := ReplyHandle.ofHeader header entry.types.reply
    let answering := c.runDeferred service entry.types.request request handle run
    let used := answering.2.useHandle service handle answering.1.use
    have hafter : used.2.Precedes (used.2.carryOut service (answering.1.after used.1 used.2)).2 :=
      (precedes_allowsHandlers service).carryOut used.2 _
    have huse : answering.2.Precedes used.2 :=
      (precedes_allowsHandlers service).useHandle answering.2 handle _
    have hbefore := leads_togglesOf service
      (c.record (.deferred entry.types.request request handle)) _ (huse (hafter hconnected))
    have hrest := leads_togglesOf service used.2 (answering.1.after used.1 used.2) hconnected
    rw [eventsStopped_useHandle] at hrest
    exact hbefore.trans hrest

/-- Serving a frame makes the toggles of its handler. -/
theorem leads_handlerToggles (service : Service) (c : Connection) (frame : Frame)
    (hconnected : (c.serve service frame).2.life.isConnected = true) :
    ToggleLog.Leads c.eventsStopped (c.handlerToggles service frame)
      (c.serve service frame).2.eventsStopped := by
  unfold handlerToggles
  by_cases hrequest : frame.header.isRequest = true
  · rw [if_pos hrequest]
    obtain ⟨hevents, hlife⟩ := c.serve_eventsStopped_life service hrequest
    rw [hlife] at hconnected
    rw [hevents]
    rcases hhandler : handlerFor? service frame with _ | ⟨entry, request⟩
    · obtain ⟨status, e, hanswer⟩ := c.answer_of_refused hhandler
      rw [hanswer]
      exact .nil
    · obtain ⟨c', hanswer, hc'⟩ := c.answer_of_handled hhandler
      have hrun : c'.life = (c.runHandler service entry frame.header request).2.life ∧
          c'.eventsStopped =
            (c.runHandler service entry frame.header request).2.eventsStopped := by
        rcases hc' with rfl | ⟨-, e, rfl⟩
        · exact ⟨rfl, rfl⟩
        · exact ⟨rfl, rfl⟩
      rw [hanswer] at hconnected ⊢
      rw [show c'.life = _ from hrun.1] at hconnected
      rw [show c'.eventsStopped = _ from hrun.2]
      exact leads_runToggles service c entry frame.header request hconnected
  · rw [if_neg hrequest, c.serve_of_not_isRequest service hrequest]
    obtain ⟨calls, problems, heq⟩ := c.exists_handleReply frame
    rw [heq]
    exact .nil

end Connection

end CallWire
