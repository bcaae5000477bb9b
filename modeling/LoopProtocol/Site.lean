import LoopProtocol.Frame

/-!
# Sites

A site is a point of a protocol at which a driver can stand. It has a name and a role, and it tells
what the driver can do there: run a loop through one of three surfaces, send a message, or end
something.

Two families of sites are built in. The nested protocol runs one loop inside another,

    foreach A[i : 1..k] (foreach A[j : 1..k] (foo to A[j]); bar to A[i])

and has its own sites on each surface. A free loop head has any name, number and parameter, and a
body without protocol of its own; it runs through every surface.
-/

namespace LoopProtocol

/-- What a site is for the engine. -/
inductive Role where
  /-- The head of a loop: enters the body or leaves the loop. -/
  | loopHead
  /-- The first site of a loop body. -/
  | bodyEntry
  /-- Any later site, the last of a body included. -/
  | bodyContinuation
  /-- The last site of a protocol. -/
  | terminal
deriving DecidableEq

/-- The name of a role. -/
def Role.text : Role → String
  | loopHead => "LoopHead"
  | bodyEntry => "BodyEntry"
  | bodyContinuation => "BodyContinuation"
  | terminal => "Terminal"

/-- How a driver runs the body of a loop once for each iteration. -/
inductive Surface where
  /-- The driver asks the loop head before each iteration and comes back to it after. -/
  | polling
  /-- The driver takes the bodies from a sequence and ends each. -/
  | iterator
  /-- The driver hands the body to the loop head as a function. -/
  | callback
deriving DecidableEq

/-- All surfaces. -/
def Surface.all : List Surface := [.polling, .iterator, .callback]

/-- A loop head: its name, the number of its loop and the parameter that holds the loop's bound. -/
structure LoopHead where
  name : String
  id : LoopId
  param : String
deriving DecidableEq

/-- The places of the nested protocol. -/
inductive Place where
  | outer
  | inner
  | innerBody
  | innerEnd
  | afterInner
  | outerEnd
  | done
deriving DecidableEq

namespace Place

/-- The name of a place. -/
def name : Place → String
  | outer => "Outer"
  | inner => "Inner"
  | innerBody => "InnerBody"
  | innerEnd => "InnerEnd"
  | afterInner => "AfterInner"
  | outerEnd => "OuterEnd"
  | done => "Done"

/-- The role of a place. -/
def role : Place → Role
  | outer | inner => .loopHead
  | innerBody => .bodyEntry
  | innerEnd | afterInner | outerEnd => .bodyContinuation
  | done => .terminal

end Place

/-- A point of a protocol at which a driver can stand. -/
inductive Site where
  /-- A place of the nested protocol, run through the given surface. -/
  | nested (surface : Surface) (place : Place)
  /-- A free loop head. -/
  | free (head : LoopHead)
  /-- In or after the body of a free loop. -/
  | step
  /-- The body of a free loop that was taken from a sequence, and its end as well. -/
  | item
  /-- A site outside both families, at which only the moves open to every site are possible. -/
  | bare (name : String) (role : Role)
deriving DecidableEq

/-- The sites around a loop: its head, where a body starts, where an iteration ends, and where the
driver goes after the loop. -/
structure LoopShape where
  head : LoopHead
  body : Site
  tail : Site
  after : Site
deriving DecidableEq

/-- A site at which a message is sent: its label, the site after it, and the loop that has to be
over by then, if any. -/
structure SendPoint where
  label : String
  next : Site
  closes : Option LoopId
deriving DecidableEq

/-- A site at which something ends. -/
inductive EndPoint where
  /-- An iteration ends, and the next body starts at this site. -/
  | iteration (nextBody : Site)
  /-- The protocol ends, and the given loop, if any, has to be over by then. -/
  | protocol (closes : Option LoopId)
deriving DecidableEq

/-! ## The nested protocol -/

namespace Nested

/-- The number of the loop over `i`. -/
def outerId : LoopId := ⟨0⟩

/-- The number of the loop over `j`. -/
def innerId : LoopId := ⟨1⟩

/-- The parameter that bounds both loops. -/
def param : String := "k"

/-- The site at which a run through the surface starts. -/
def start (surface : Surface) : Site := .nested surface .outer

/-- The outer loop. On the polling surface an iteration ends at the head itself. -/
def outer (surface : Surface) : LoopShape where
  head := ⟨"Outer", outerId, param⟩
  body := .nested surface .inner
  tail := .nested surface (if surface = .polling then .outer else .outerEnd)
  after := .nested surface .done

/-- The inner loop. On the polling surface an iteration ends at the head itself. -/
def inner (surface : Surface) : LoopShape where
  head := ⟨"Inner", innerId, param⟩
  body := .nested surface .innerBody
  tail := .nested surface (if surface = .polling then .inner else .innerEnd)
  after := .nested surface .afterInner

/-- The message of the inner body. -/
def foo (surface : Surface) : SendPoint := ⟨"foo", (inner surface).tail, none⟩

/-- The message after the inner loop. On the iterator surface a driver can stand there while the
inner loop still runs, so the send point checks that the loop is over. -/
def bar (surface : Surface) : SendPoint where
  label := "bar"
  next := (outer surface).tail
  closes := if surface = .iterator then some innerId else none

/-- The loop that has to be over when the protocol ends. On the iterator surface a driver can stand
at the end while the outer loop still runs. -/
def closesAtEnd (surface : Surface) : Option LoopId :=
  if surface = .iterator then some outerId else none

end Nested

/-! ## What a driver can do at a site -/

namespace Site

/-- The name of a site, by which faults and log lines call it. -/
def name : Site → String
  | nested _ place => place.name
  | free head => head.name
  | step => "Step"
  | item => "Item"
  | bare name _ => name

/-- The role of a site. -/
def role : Site → Role
  | nested _ place => place.role
  | free _ => .loopHead
  | step => .bodyContinuation
  | item => .bodyEntry
  | bare _ role => role

/-- The loop that a driver can run from the site through the surface. A place of the nested
protocol belongs to one surface. -/
def loop? (site : Site) (surface : Surface) : Option LoopShape :=
  match site with
  | nested s .outer => if s = surface then some (Nested.outer s) else none
  | nested s .inner => if s = surface then some (Nested.inner s) else none
  | free head =>
    match surface with
    | .iterator => some ⟨head, .item, .item, .step⟩
    | .polling | .callback => some ⟨head, .step, .step, .step⟩
  | _ => none

/-- The message that is sent at the site. -/
def send? : Site → Option SendPoint
  | nested s .innerBody => some (Nested.foo s)
  | nested s .afterInner => some (Nested.bar s)
  | _ => none

/-- What ends at the site. Through a callback the loop head ends the iterations, and no site
does. -/
def end? : Site → Option EndPoint
  | nested .iterator .innerEnd => some (.iteration (Nested.inner .iterator).body)
  | nested .iterator .outerEnd => some (.iteration (Nested.outer .iterator).body)
  | item => some (.iteration .item)
  | nested s .done => some (.protocol (Nested.closesAtEnd s))
  | _ => none

end Site

end LoopProtocol
