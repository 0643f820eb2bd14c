/-
What a module sends in answer to a request, and the codes it answers with.

A reply is a message with a code or with data. What a handler has answered is
compared in these terms by the modules about storage and about the radio, whose
own functions put the bytes together.
-/
import Signpost.Api

namespace Signpost

open Lib

def tockSuccess : Int := 0
def tockFail : Int := -1
def tockEinval : Int := -6
def tockEsize : Int := -7
def tockEnomem : Int := -9

/-- A message sent in answer. -/
structure Reply where
  dest : UInt8
  frameType : UInt8
  apiType : UInt8
  messageType : UInt8
  message : Bytes
  deriving DecidableEq

def Reply.errorCode (r : Reply) : Int := toInt (u32 (.ofList r.message 0) 0)

def signpostApiErrorReply (dest apiType messageType : UInt8) (errorCode : Int) : Reply :=
  ⟨dest, errorFrame, apiType, messageType, le32 (UInt32.ofInt errorCode)⟩

/-- The sends of `signpost_api_error_reply_repeating`, which return `rc`. -/
def signpostApiErrorReplyRepeating (rc : Int) (r : Reply) : Nat → List Reply
  | 0 => []
  | tries + 1 => r :: if rc < 0 then signpostApiErrorReplyRepeating rc r tries else []

def signpostNetworkingPublishReply (srcAddr : UInt8) (returnCode : Int) : Reply :=
  ⟨srcAddr, responseFrame, networkingApiType, networkingPublishMessage, le32 (UInt32.ofInt returnCode)⟩

variable {dest apiType messageType srcAddr : UInt8} {code : Int}

theorem toInt_le32 (hcode : -2147483648 ≤ code) (hcode' : code < 2147483648) :
    toInt (u32 (Mem.ofList (le32 (UInt32.ofInt code)) 0) 0) = code := by
  rw [← Mem.copy_zero_ofList, u32_copy_le32, toInt_ofInt hcode hcode']

theorem errorCode_reply (hcode : -2147483648 ≤ code) (hcode' : code < 2147483648) :
    (signpostApiErrorReply dest apiType messageType code).errorCode = code := by
  rw [Reply.errorCode]
  exact toInt_le32 hcode hcode'

theorem errorCode_publishReply (hcode : -2147483648 ≤ code) (hcode' : code < 2147483648) :
    (signpostNetworkingPublishReply srcAddr code).errorCode = code := by
  rw [Reply.errorCode]
  exact toInt_le32 hcode hcode'

end Signpost
