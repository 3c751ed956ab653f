import PageDispatch.Demo
import PageDispatch.Script.ScriptedUnit
import PageDispatch.Snapshot.Engine

/-!
This module contains pages, decorators, constructors, hooks, codecs and fallback responders that
journal their calls and then do as they are told.
-/

namespace PageDispatch
namespace Script

def entry (values : List Json) : Signal := .note (.arr values)

inductive Trouble where
  | none
  | error (e : CauseChain)
  | panic (payload : PanicPayload)
  deriving Inhabited

namespace Trouble

def answer {α : Type} (t : Trouble) (a : Except CauseChain α) :
    Except PanicPayload (Except CauseChain α) :=
  match t with
  | none => .ok a
  | error e => .ok (.error e)
  | panic payload => .error payload

end Trouble

def page (name chain : String) (elements : List (Except CauseChain ChainElement))
    (trouble : Trouble) : Page where
  name := name
  build context :=
    { signals := [entry [.str "build", .str name, .ofNat context.objects.length]]
      result := trouble.answer ((elements.mapM id).map fun elements => ⟨chain, elements⟩) }

def edits (prepended pushed : Option (Except CauseChain ChainElement)) :
    Except CauseChain (List ChainEdit) := do
  let prepended ← prepended.toList.mapM id
  let pushed ← pushed.toList.mapM id
  return prepended.map .prepend ++ pushed.map .push

def decorator (only : Option String) (prepended pushed : Option (Except CauseChain ChainElement))
    (trouble : Trouble) : Decorator where
  decorate chain _ :=
    match chain.elements.mapM id with
    | .error payload => .panic payload
    | .ok names =>
      { signals := [entry [.str "decorate", .str chain.name, .ofStrings names]]
        result :=
          if only.all (· == chain.name) then
            match edits prepended pushed with
            | .ok edits => trouble.answer (.ok edits)
            | .error e => .ok (.error e)
          else .ok (.ok []) }

def fails : Constructor := .ofArgs fun args => .error (.of ("no luck with " ++ args.compact))

def explodes : Constructor := .custom fun _ _ => .panic (.text "constructor blew up")

def needsWord : Constructor :=
  .custom fun _ context => .pure do
    match ← context.require .word with
    | .word n => return .respond .ok (some (.text (toString n.toNat)))
    | _ => return .respond .ok none

def hook (panics : Option PanicPayload) : ErrorHook := fun report =>
  { signals := [entry [.str "hook", report.toJson]]
    result :=
      match panics with
      | none => .ok ()
      | some payload => .error payload }

def codec (pretty : Bool) (trouble : Trouble) : MessageCodec := fun value =>
  { signals := [entry [.str "encode"]]
    result := trouble.answer (.ok (MessageCodec.encodeJson pretty value)) }

inductive FallbackStyle where
  | text
  | delayed
  | panics
  deriving DecidableEq, Repr

def fallbackCall (style : FallbackStyle) (name : String) (response : Response) : Call Response :=
  { signals := [entry [.str "fallback", .str name]]
    result :=
      match style with
      | .text => .ok response
      | .delayed => .ok { response with delay := some (.ofMilliseconds 6) }
      | .panics => .error (.text "fallback exploded") }

def fallback (style : FallbackStyle) : FallbackResponder where
  notFound request := fallbackCall style "not_found" (.text .notFound request.path)
  onError _ fatal := fallbackCall style "on_error" (.text ⟨502, by decide⟩ fatal.message)
  overloaded request :=
    fallbackCall style "overloaded" (.text ⟨429, by decide⟩ request.method.name)

end Script
end PageDispatch
