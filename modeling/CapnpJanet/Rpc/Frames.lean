import CapnpJanet.Builder.Program
import CapnpJanet.Builder.Serialize

/-!
# The frames a connection sends

The builder halves of the functions of `capnp_rpc.c` that send: what each puts
into the builder before it is flushed.  The field offsets are those of
`rpc.capnp`.  The reply a dispatch function writes is a program of builder
calls, so it is arbitrary up to what the builder lets it do.
-/

namespace CapnpJanet.Rpc

open Builder

/-! ## Message tags and field offsets -/

/-- `CAPNP_RPC_MSG_UNIMPLEMENTED` -/
def msgUnimplemented : Nat := 0

/-- `CAPNP_RPC_MSG_ABORT` -/
def msgAbort : Nat := 1

/-- `CAPNP_RPC_MSG_CALL` -/
def msgCall : Nat := 2

/-- `CAPNP_RPC_MSG_RETURN` -/
def msgReturn : Nat := 3

/-- `CAPNP_RPC_MSG_FINISH` -/
def msgFinish : Nat := 4

/-- `CAPNP_RPC_MSG_RELEASE` -/
def msgRelease : Nat := 6

/-- `CAPNP_RPC_MSG_BOOTSTRAP` -/
def msgBootstrap : Nat := 8

/-- `CAPNP_RPC_MSG_PROVIDE` -/
def msgProvide : Nat := 10

/-- `CAPNP_RPC_MSG_ACCEPT` -/
def msgAccept : Nat := 11

/-- `CAPNP_RPC_MSG_JOIN` -/
def msgJoin : Nat := 12

/-- `CAPNP_RPC_MSG_DISEMBARGO` -/
def msgDisembargo : Nat := 13

/-- `MESSAGE_TAG_OFF` -/
def messageTagOff : Nat := 0

/-- `RETURN_ANSWERID_OFF` -/
def returnAnswerIdOff : Nat := 0

/-- `RETURN_TAG_OFF` -/
def returnTagOff : Nat := 6

/-- `RETURN_TAG_RESULTS` -/
def returnTagResults : Nat := 0

/-- `RETURN_TAG_EXCEPTION` -/
def returnTagException : Nat := 1

/-- `CAPDESC_TAG_OFF` -/
def capDescTagOff : Nat := 0

/-- `CAPDESC_SENDERHOSTED_OFF` -/
def capDescSenderHostedOff : Nat := 4

/-- `CAPDESC_TAG_SENDERHOSTED` -/
def capDescTagSenderHosted : Nat := 1

/-- `CAPDESC_TAG_THIRDPARTYHOSTED` -/
def capDescTagThirdPartyHosted : Nat := 5

/-- `DIS_CTX_TAG_OFF` -/
def disCtxTagOff : Nat := 4

/-- `DIS_CTX_VALUE_OFF` -/
def disCtxValueOff : Nat := 0

/-- `DIS_CTX_SENDER_LOOPBACK` -/
def disCtxSenderLoopback : Nat := 0

/-- `DIS_CTX_RECEIVER_LOOPBACK` -/
def disCtxReceiverLoopback : Nat := 1

/-- `DIS_CTX_PROVIDE` -/
def disCtxProvide : Nat := 3

/-! ## Replies -/

/-- The root `Message` struct with its union tag. -/
def beginMessage (tag : Nat) : BuildM BPtr := do
  let root ← Builder.root
  let msg ← struct root 1 1
  setU16 msg messageTagOff tag
  return msg

/-- `begin_return`: the `Return` and its `Payload`. -/
def beginReturn (answerId : Nat) : BuildM (BPtr × BPtr) := BuildM.orAlloc do
  let msg ← beginMessage msgReturn
  let at' ← slot msg 1 0
  let ret ← struct at' 2 1
  setU32 ret returnAnswerIdOff answerId
  setU16 ret returnTagOff returnTagResults
  let at' ← slot ret 2 0
  let payload ← struct at' 0 2
  return (ret, payload)

/-- `write_cap_table` -/
def writeCapTable (payload : BPtr) (eid : Nat) : BuildM Unit := BuildM.orAlloc do
  let cd ← setListStruct payload 0 1 1 1 1
  setU16 cd capDescTagOff capDescTagSenderHosted
  setU32 cd capDescSenderHostedOff eid

/-- The bytes of a C string. -/
def cString (s : String) : List UInt8 := s.toList.map fun c => UInt8.ofNat c.toNat

/-- The frame of `send_return_exception`. -/
def exceptionReturn (qid : Nat) (reason : String) : BuildM Unit := do
  let msg ← beginMessage msgReturn
  let at' ← slot msg 1 0
  let ret ← struct at' 2 1
  setU32 ret returnAnswerIdOff qid
  setU16 ret returnTagOff returnTagException
  let at' ← slot ret 2 0
  let exc ← struct at' 1 2
  setU16 exc 0 0
  setText exc 1 0 (cString reason)

/-- The frame of `send_empty_return`. -/
def emptyReturn (qid : Nat) : BuildM Unit := do
  let _ ← beginReturn qid

/-- The frame that answers a question with one capability: the common end of
`handle_bootstrap`, `handle_accept` and `release_provide_embargo`. -/
def capReturn (qid eid : Nat) : BuildM Unit := do
  let (_, payload) ← beginReturn qid
  writeCapTable payload eid
  setCap payload 0 0 0

/-- The first part of `send_join_result`, up to the capability. -/
def beginJoinResult (qid joinId : Nat) (succeeded : Bool) : BuildM (BPtr × BPtr) := do
  let (_, payload) ← beginReturn qid
  let jr ← BuildM.orAlloc do
    let at' ← slot payload 0 0
    struct at' 1 1
  setU32 jr 0 joinId
  setBool jr 32 succeeded
  return (payload, jr)

/-- The capability of a `JoinResult`. -/
def joinResultCap (payload jr : BPtr) (eid : Nat) : BuildM Unit := do
  writeCapTable payload eid
  setCap jr 1 0 0

/-- Copy a `Disembargo`'s target into the echo.  The result of the copy is
ignored, and so is a slot that cannot be had. -/
def echoTarget (m : Message) (out : BPtr) (target : Option Ptr) (left : Nat) : BuildM Unit := fun b =>
  match target with
  | none => .ok () b
  | some target =>
      match slot out 1 0 b with
      | .error _ b => .ok () b
      | .ok tslot b =>
          match copyPtr tslot m target left b with
          | .error _ b => .ok () b
          | .ok _ b => .ok () b

/-- The frame of the loopback branch of `handle_disembargo`, where `target` is
the pointer to echo, if there is one. -/
def disembargoEcho (m : Message) (target : Option Ptr) (id left : Nat) : BuildM Unit := do
  let msg ← beginMessage msgDisembargo
  let at' ← slot msg 1 0
  let out ← struct at' 1 1
  echoTarget m out target left
  setU16 out disCtxTagOff disCtxReceiverLoopback
  setU32 out disCtxValueOff id

/-- The frame of `send_unimplemented`. -/
def unimplementedEcho (m : Message) (orig : Ptr) (left : Nat) : BuildM Unit := do
  let msg ← BuildM.orAlloc (beginMessage msgUnimplemented)
  let at' ← BuildM.orAlloc (slot msg 1 0)
  let _ ← copyPtr at' m orig left

/-! ## Dispatch -/

/-- The start of a call's reply: the results struct the dispatch function
fills. -/
def beginResults (qid : Nat) : BuildM BPtr := do
  let (_, payload) ← beginReturn qid
  BuildM.orAlloc do
    let at' ← slot payload 0 0
    struct at' 1 1

/-- The builder a dispatch function is given, and its results handle. -/
def resultsBuilder (qid : Nat) : Builder × List BPtr :=
  match beginResults qid Builder.init with
  | .ok results b => (b, [results])
  | .error _ b => (b, [])

/-- The reply after the dispatch function has made its calls. -/
def callReply (qid : Nat) (ops : List BuildOp) : Builder :=
  (calls ops ⟨[], (resultsBuilder qid).2⟩ (resultsBuilder qid).1).2

/-! What the frames contain is proved once and then used by name; unification
must not run their programs. -/
attribute [irreducible] exceptionReturn emptyReturn capReturn beginJoinResult joinResultCap
  beginResults resultsBuilder callReply

/-- What a dispatch function does in one call: the calls it makes on its
results, and the code it returns.  Its results are taken to fit a frame, as
allocation is taken to succeed: anything larger is 32 GiB. -/
structure Reply where
  rc : Int
  ops : List BuildOp
  framable : ∀ qid, (callReply qid ops).Framable

end CapnpJanet.Rpc
