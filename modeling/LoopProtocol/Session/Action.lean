import LoopProtocol.Session.Basic
import LoopProtocol.Session.Reply
import LoopProtocol.Transition.Polling

/-!
# Actions of a session

The steps that a driver can make at any time. A transition moves the state that it works on out of
its variable, also when it fails, unless it is told to keep it; then it works on an alias.
-/

namespace LoopProtocol

/-- What every state allows. -/
inductive Use where
  | consume
  | send (label : String)
  | sendAfter (id : LoopId) (label : String)
  | terminate
  | terminateAfter (id : LoopId)
deriving DecidableEq

/-- The variable that a transition works on, and whether the variable keeps its state. -/
structure Source where
  name : String
  keep : Bool
deriving DecidableEq

/-- A step of a driver. Names of variables that receive something are called `dest`. -/
inductive Action where
  /-- Gives out a state without a loop around it: the start of a protocol, a free loop head, or a
  bare state. -/
  | issue (site : Site) (inst : InstanceId) (dest : String)
  | setParam (name : String) (bound : UInt64) (inst : InstanceId)
  | params (inst : InstanceId)
  | top (inst : InstanceId)
  | frames (inst : InstanceId)
  | events (recorder : RecorderId)
  | clearEvents (recorder : RecorderId)
  /-- Raises a fault that comes from no instance. -/
  | raise (fault : Fault)
  /-- Makes an alias of a state. -/
  | alias (of : String) (dest : String)
  | drop (of : String)
  | info (of : String)
  | loopId (of : String)
  | hasMore (of : String)
  | take (of : String) (dest : String)
  | use (of : String) (use : Use)
  /-- Makes a new item that feeds the same sequence. -/
  | fork (of : String) (dest : String)
  /-- Enters a loop. At a free head the surface has to be given. -/
  | enter (source : Source) (surface : Option Surface) (dest after : String)
  /-- Leaves a polled loop. -/
  | exit (source : Source) (dest : String)
  /-- Sends the message of the site, which has to have this label. -/
  | send (source : Source) (label : String) (dest : String)
  /-- Ends what ends at the site. -/
  | finish (source : Source)
  /-- Ends an iteration, then takes from a sequence. -/
  | finishTaking (source : Source) (sequence : String) (dest : String)
  /-- Ends an iteration, then drops a sequence. -/
  | finishDropping (source : Source) (sequence : String)

namespace SessionM

/-- Works on the state in a variable. -/
def withState (name : String) (f : Handle → SessionM Reply) : SessionM Reply := do
  match (← get).vars.get? name with
  | some (.state h) => f h
  | some (.sequence _ _) => pure .unsupported
  | none => pure .noState

/-- Works on the sequence in a variable. -/
def withSequence (name : String) (f : InstanceId → SequenceId → SessionM Reply) :
    SessionM Reply := do
  match (← get).vars.get? name with
  | some (.sequence owner s) => f owner s
  | some (.state _) => pure .unsupported
  | none => pure .noState

/-- Works on the state of a transition, which is moved out of its variable unless it is kept. The
transition has to be possible at the state's site. -/
def withSource {α : Type} (source : Source) (possible : Site → Option α)
    (f : Handle → α → SessionM Reply) : SessionM Reply :=
  withState source.name fun h =>
    match possible h.token.site with
    | some a => do
      unless source.keep do discard <| remove source.name
      f h a
    | none => pure .unsupported

/-- Works on an instance that exists. -/
def withInstance (i : InstanceId) (f : Instance → SessionM Reply) : SessionM Reply := do
  match (← get).world.instance? i with
  | some x => f x
  | none => pure .unsupported

/-- Stores a new state. -/
def give (dest : String) (owner : InstanceId) (token : Token) : SessionM Reply := do
  store dest (.state ⟨owner, token⟩)
  pure (.state token.site)

/-- The answer to an action that answers nothing. -/
def answer {α : Type} (reply : Reply) : Except Fault α → SessionM Reply
  | .ok _ => pure reply
  | .error fault => pure (.fault fault)

/-- The surface of a state that stands at a head: its own, or the given one at a free head. -/
def surfaceAt? (site : Site) (given : Option Surface) : Option Surface :=
  match site with
  | .nested s _ => some s
  | _ => given

/-- The loop that can be entered from a site by polling or iteration. -/
def enterable? (given : Option Surface) (site : Site) : Option (Surface × LoopShape) := do
  let surface ← surfaceAt? site given
  if surface = .callback then none else some (surface, ← site.loop? surface)

/-- Enters a loop. -/
def enter (h : Handle) (surface : Surface) (shape : LoopShape) (dest after : String) :
    SessionM Reply :=
  match surface with
  | .iterator => do
    match ← on h.owner (Iterator.enter shape h.token) with
    | .ok (s, next) =>
      store dest (.sequence h.owner s)
      store after (.state ⟨h.owner, next⟩)
      pure (.entered s.loop next.site)
    | .error fault => pure (.fault fault)
  | _ => do
    match ← on h.owner (Polling.enter shape h.token) with
    | .ok body => give dest h.owner body
    | .error fault => pure (.fault fault)

/-- Ends what ends at a state's site. -/
def finish (h : Handle) : EndPoint → SessionM Reply
  | .protocol closes => do answer .done (← on h.owner (h.token.finish closes))
  | .iteration nextBody =>
    match h.token.feed with
    | none => pure .unsupported
    | some s => do
      match ← on h.owner (Iterator.endIteration h.token s nextBody) with
      | .ok .waiting => pure .waiting
      | .ok _ => pure .done
      | .error fault => pure (.fault fault)

/-- Takes from a sequence. It has ended when it is empty, and closed or without a state left that
could feed it. -/
def take (owner : InstanceId) (s : SequenceId) (dest : String) : SessionM Taken := do
  match ← on owner (Iterator.take? s) with
  | .ok (some token) =>
    store dest (.state ⟨owner, token⟩)
    pure (.body token.site)
  | .ok none =>
    let session ← get
    let isClosed := (session.world.instance? owner).any fun x => (x.handOff s).isClosed
    if isClosed || !session.vars.feeds owner s then pure .ended else pure .pending
  | .error _ => pure .ended

/-- What can be seen of a state. Where an iteration ends, its sequence can be seen too. -/
def stateInfo (h : Handle) (x : Instance) : StateInfo where
  site := h.token.site
  isConsumed := h.token.isConsumed x
  owner := h.owner
  producer :=
    match h.token.site.end?, h.token.feed with
    | some (.iteration _), some s =>
      some ⟨s.loop, (x.handOff s).isClosed, Iterator.producerText s x⟩
    | _, _ => none

/-- Uses a state. -/
def useState (h : Handle) : Use → SessionM Reply
  | .consume => do answer .sameInstance (← on h.owner h.token.consume)
  | .send label => do answer .sameInstance (← on h.owner (h.token.send label))
  | .sendAfter id label => do answer .sameInstance (← on h.owner (h.token.sendAfter id label))
  | .terminate => do answer .done (← on h.owner h.token.terminate)
  | .terminateAfter id => do answer .done (← on h.owner (h.token.terminateAfter id))

/-- The fault of an iteration's end that had to wait for a slot: none after a take, and this one
when the consumer left. -/
def failureOfEnd (whenWaiting : Option Fault) : Reply → Option Fault
  | .fault fault => some fault
  | .waiting => whenWaiting
  | _ => none

/-- Makes a step. -/
def perform : Action → SessionM Reply
  | .issue site inst dest =>
    withInstance inst fun _ => do
      match ← on inst (Act.issue site none) with
      | .ok token => give dest inst token
      | .error fault => pure (.fault fault)
  | .setParam name bound inst =>
    withInstance inst fun _ => do
      match ← on inst (Act.setParam name bound) with
      | .ok before => pure (.previous before)
      | .error fault => pure (.fault fault)
  | .params inst => withInstance inst fun x => pure (.table x.bounds)
  | .top inst => withInstance inst fun x => pure (.frame x.stack.top?)
  | .frames inst => withInstance inst fun x => pure (.frames x.stack)
  | .events recorder => return .events ((← get).world.recorders.events recorder)
  | .clearEvents recorder => do
    modify fun s =>
      { s with world := { s.world with recorders := s.world.recorders.clear recorder } }
    pure .done
  | .raise fault => pure (.fault fault)
  | .alias of dest => withState of fun h => give dest h.owner h.token
  | .drop of => do
    match ← remove of with
    | some h =>
      release (some h)
      pure .done
    | none => pure .noState
  | .info of =>
    withState of fun h => withInstance h.owner fun x => pure (.info (stateInfo h x))
  | .loopId of =>
    withState of fun h =>
      match Surface.all.findSome? h.token.site.loop? with
      | some shape => pure (.loop shape.head.id)
      | none => pure .unsupported
  | .hasMore of =>
    withState of fun h => withInstance h.owner fun x =>
      match h.token.site.loop? .polling with
      | some shape => pure (.more (x.hasMore shape.head.id))
      | none => pure .unsupported
  | .take of dest => withSequence of fun owner s => return .taken (← take owner s dest)
  | .use of u => withState of fun h => useState h u
  | .fork of dest =>
    withState of fun h => do
      if h.token.site = .item then
        match ← on h.owner (Act.issue .item h.token.feed) with
        | .ok token => give dest h.owner token
        | .error fault => pure (.fault fault)
      else pure .unsupported
  | .enter source surface dest after =>
    withSource source (enterable? surface) fun h (surface, shape) =>
      enter h surface shape dest after
  | .exit source dest =>
    withSource source (·.loop? .polling) fun h shape => do
      match ← on h.owner (Polling.exit shape h.token) with
      | .ok token => give dest h.owner token
      | .error fault => pure (.fault fault)
  | .send source label dest =>
    withSource source (fun site => site.send?.filter (·.label = label)) fun h point => do
      match ← on h.owner (h.token.sendAt point) with
      | .ok token => give dest h.owner token
      | .error fault => pure (.fault fault)
  | .finish source => withSource source (·.end?) finish
  | .finishTaking source sequence dest =>
    withSource source (·.end?) fun h point =>
      withSequence sequence fun owner s => do
        let ended ← finish h point
        let taken ← take owner s dest
        pure (.endTaking (failureOfEnd none ended) taken)
  | .finishDropping source sequence =>
    withSource source (·.end?) fun h point =>
      withSequence sequence fun _ s => do
        let ended ← finish h point
        release (← remove sequence)
        match failureOfEnd (some (.handOffClosed s.loop)) ended with
        | some fault => pure (.fault fault)
        | none => pure .done

end SessionM

end LoopProtocol
