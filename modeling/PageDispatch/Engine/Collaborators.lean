import PageDispatch.Chain.Registry
import PageDispatch.Engine.Failure
import PageDispatch.Pool

/-!
This module contains what an engine is given from outside: how structured messages are encoded, who
is told about failures, and who answers when no page does. Any of them may panic.
-/

namespace PageDispatch

structure EncodedMessage where
  contentType : HeaderValue
  bytes : Bytes
  deriving DecidableEq, Repr

abbrev MessageCodec := Json → Attempt EncodedMessage

namespace MessageCodec

def encodeJson (pretty : Bool) (value : Json) : EncodedMessage :=
  ⟨Response.jsonType, Utf8.encode (if pretty then value.pretty "" else value.compact)⟩

def json (pretty : Bool) : MessageCodec := fun value => .pure (.ok (encodeJson pretty value))

end MessageCodec

abbrev ErrorHook := FailureReport → Call Unit

namespace ErrorHook

def silent : ErrorHook := fun _ => .pure ()

end ErrorHook

structure FallbackResponder where
  notFound : Request → Call Response
  onError : Request → FatalFailure → Call Response
  overloaded : Request → Call Response

namespace FallbackResponder

def document (error : String) (request : Request) (more : List (String × Json)) : Json :=
  .object ([("error", .str error)] ++ more ++ [("request_id", .str (toString request.id))])

def defaultNotFound (request : Request) : Response :=
  .json .notFound
    (document "Not Found" request
      [("method", .str request.method.name), ("path", .str request.path)])

def defaultOnError (request : Request) : Response :=
  .json .internalServerError (document "Internal Server Error" request [])

def defaultOverloaded (retryAfter : Duration) (request : Request) : Response :=
  (Response.json .serviceUnavailable (document "Service Unavailable" request [])).withHeader
    .retryAfter (.ofNat retryAfter.seconds.toNat)

def default (retryAfter : Duration) : FallbackResponder where
  notFound request := .pure (defaultNotFound request)
  onError request _ := .pure (defaultOnError request)
  overloaded request := .pure (defaultOverloaded retryAfter request)

end FallbackResponder

structure Settings where
  registry : Registry
  codec : MessageCodec
  hook : ErrorHook
  fallback : FallbackResponder
  exposeDetails : Bool
  pool : PoolConfig

end PageDispatch
