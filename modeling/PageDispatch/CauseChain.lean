/-!
This module contains errors as they are reported: a message and the messages of what caused it.
-/

namespace PageDispatch

structure CauseChain where
  message : String
  causes : List String
  deriving DecidableEq, Repr, Inhabited

namespace CauseChain

def of (message : String) : CauseChain := ⟨message, []⟩

def messages (e : CauseChain) : List String := e.message :: e.causes

def within (outer : String) (e : CauseChain) : CauseChain := ⟨outer, e.messages⟩

def full (e : CauseChain) : String := String.intercalate ": " e.messages

def ofMessages : List String → CauseChain
  | [] => ⟨"", []⟩
  | message :: causes => ⟨message, causes⟩

@[simp]
theorem messages_within (outer : String) (e : CauseChain) :
    (e.within outer).messages = outer :: e.messages := rfl

@[simp]
theorem message_within (outer : String) (e : CauseChain) : (e.within outer).message = outer := rfl

theorem full_within (outer : String) (e : CauseChain) :
    (e.within outer).full = outer ++ ": " ++ e.full := by
  simp only [full, messages_within]
  simp only [messages, String.intercalate_cons_cons]

end CauseChain
end PageDispatch
