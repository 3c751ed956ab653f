import PageDispatch.Engine.Run

/-!
This module contains how a dispatch goes from page to page, until one of them does not reject the
request, and how it ends.
-/

namespace PageDispatch

namespace Dispatch

def trying (d : Dispatch) (page : Page) : Dispatch :=
  { d with tried := d.tried + 1, current := some page.name }

def start (d : Dispatch) (chain : HandlerChain) : Run :=
  .ofChain chain d.context d.channel d.outer (.dispatch d)

def summary (d : Dispatch) (now : Nat) (disposition : Disposition) (status : Option Status) :
    DispatchSummary :=
  { requestId := d.context.request.id, disposition, status, page := d.current
    pagesTried := d.tried, latency := now - d.started }

end Dispatch

namespace Machine

def finish (m : Machine) (d : Dispatch) (disposition : Disposition) (status : Option Status) :
    Machine :=
  let summary := d.summary m.clock disposition status
  { m with metrics := m.metrics.recordEnd disposition (1000 * summary.latency).toUInt64 }.log
    (.finished d.id d.nested summary)

def finishWith (m : Machine) (d : Dispatch) (disposition : Disposition) (r : Response) : Machine :=
  (m.deliver d r).finish d disposition (some r.status)

def notFound (m : Machine) (d : Dispatch) : Machine :=
  if m.isOpen d.channel then
    let (m, r) := m.guarded d.outer (m.settings.fallback.notFound d.context.request)
    m.finishWith { d with current := none } .notFound r
  else m.finish d .abandoned none

/--
Ends a dispatch with the answer of a page. If a failure could not be reported, the fallback answers
instead and the connection is closed.
-/
def conclude (m : Machine) (d : Dispatch) (a : Answer) : Machine :=
  let disposition := if a.record.kind = .failure then .failed else .answered
  match a.fatal with
  | none => m.finishWith d disposition a.response
  | some fatal =>
    let (m, r) := m.guarded d.outer (m.settings.fallback.onError d.context.request fatal)
    m.finishWith d disposition r.closing

def decorate (m : Machine) (outer : ChannelId) (context : Context) :
    List Decorator → HandlerChain → Machine × Except PanicPayload (Except CauseChain HandlerChain)
  | [], chain => (m, .ok (.ok chain))
  | decorator :: rest, chain =>
    match m.call outer (decorator.decorate chain.view context) with
    | (m, .ok (.ok edits)) => m.decorate outer context rest (edits.foldl .edit chain)
    | (m, .ok (.error e)) => (m, .ok (.error e))
    | (m, .error payload) => (m, .error payload)

def construct (m : Machine) (d : Dispatch) (page : Page) :
    Machine × Except PanicPayload (Except CauseChain HandlerChain) :=
  match m.call d.outer (page.build d.context) with
  | (built, .ok (.ok chain)) => built.decorate d.outer d.context m.decorators chain
  | (m, .ok (.error e)) => (m, .ok (.error e))
  | (m, .error payload) => (m, .error payload)

def buildChain (m : Machine) (d : Dispatch) (page : Page) :
    Machine × Except CauseChain HandlerChain :=
  match m.construct d page with
  | (m, .ok result) => (m, result)
  | (m, .error payload) =>
    (m, .error (.of ("page " ++ page.name ++ " panicked while building: " ++ payload.message)))

def failPage (m : Machine) (page : String) (context : Context) (channel outer : ChannelId)
    (owner : Owner) (e : CauseChain) : Machine × Option Answer :=
  m.fail (.ofChain (.empty page) context channel outer owner) "<page>" none (.pageBuild e) .empty

def breakOff (m : Machine) (d : Dispatch) (page : String) (e : CauseChain) : Machine :=
  match m.failPage page d.context d.channel d.outer (.dispatch d) e with
  | (m, some answer) => m.conclude d answer
  | (m, none) => m.finish d .abandoned none

def tryPage (m : Machine) (d : Dispatch) (page : Page) : Machine :=
  let m := { m with metrics := m.metrics.recordPage }.log (.building d.id page.name)
  match m.buildChain d page with
  | (m, .ok chain) => m.submit (.step (d.start chain))
  | (m, .error e) => m.breakOff d page.name e

def advance (m : Machine) (d : Dispatch) : Machine :=
  match d.pages[d.tried]? with
  | none => m.notFound d
  | some page => m.tryPage (d.trying page) page

def complete (m : Machine) (owner : Owner) (result : ChainResult) : Machine :=
  match owner with
  | .caller => m.log (.completed result)
  | .dispatch d =>
    match result with
    | .answered answer => m.conclude d answer
    | .rejected _ _ => (m.log (.rejected d.id d.tried)).advance d
    | .abandoned _ => m.finish d .abandoned none

def newDispatch (m : Machine) (request : Request) (channel outer : ChannelId) (nested : Bool) :
    Dispatch :=
  { id := m.dispatches, nested, context := .forRequest request, channel, outer, pages := m.pages
    tried := 0, current := none, started := m.clock }

def receive (m : Machine) (d : Dispatch) : Machine :=
  { m with metrics := m.metrics.recordRequest, dispatches := m.dispatches + 1 }.log
    (.received d.id d.channel d.context.request)

def tryAdmit (m : Machine) : Bool × Machine :=
  let (admitted, pool) := m.pool.tryAdmit
  (admitted, { m with pool })

def shed (m : Machine) (d : Dispatch) : Machine :=
  let (m, r) := m.guarded d.outer (m.settings.fallback.overloaded d.context.request)
  m.finishWith d .shed r

/-- Starts handling a request, unless the pool refuses it. -/
def dispatch (m : Machine) (request : Request) (channel outer : ChannelId) (nested : Bool) :
    Machine :=
  let d := m.newDispatch request channel outer nested
  match (m.receive d).tryAdmit with
  | (true, m) => m.advance d
  | (false, m) => m.shed d

def runChain (m : Machine) (chain : HandlerChain) (context : Context) (channel : ChannelId) :
    Machine :=
  m.submit (.step (.ofChain chain context channel channel .caller))

def runFailedPage (m : Machine) (page : String) (context : Context) (channel : ChannelId)
    (e : CauseChain) : Machine :=
  match m.failPage page context channel channel .caller e with
  | (m, some answer) => m.log (.completed (.answered answer))
  | (m, none) => m.log (.completed (.abandoned 0))

end Machine
end PageDispatch
