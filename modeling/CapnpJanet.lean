import CapnpJanet.Logic.Ends
import CapnpJanet.Logic.Window
import CapnpJanet.Logic.Units
import CapnpJanet.Memory.LittleEndian
import CapnpJanet.Wire.Pointer
import CapnpJanet.Packed.RoundTrip
import CapnpJanet.Logic.Checked
import CapnpJanet.Logic.Walks
import CapnpJanet.Logic.Atomic
import CapnpJanet.Packed.Buffers
import CapnpJanet.Packed.Filled
import CapnpJanet.Packed.Growth
import CapnpJanet.Packed.Acceptance
import CapnpJanet.Message.Core
import CapnpJanet.Message.Resolve
import CapnpJanet.Message.Framing
import CapnpJanet.Message.Getters
import CapnpJanet.Message.Target
import CapnpJanet.Message.Bounds
import CapnpJanet.Message.DoubleFar
import CapnpJanet.Builder.Core
import CapnpJanet.Builder.Ops
import CapnpJanet.Canonical.Copier
import CapnpJanet.Builder.Arena
import CapnpJanet.Builder.Frame
import CapnpJanet.Canonical.Frame
import CapnpJanet.Builder.Program
import CapnpJanet.Builder.Session
import CapnpJanet.Builder.Serialize
import CapnpJanet.Rpc.State
import CapnpJanet.Rpc.Frames
import CapnpJanet.Rpc.Handle
import CapnpJanet.Builder.Single
import CapnpJanet.Builder.Links
import CapnpJanet.Message.Landing
import CapnpJanet.Message.Leftover
import CapnpJanet.Rpc.Answers
import CapnpJanet.Rpc.Effects
import CapnpJanet.Rpc.Joins
import CapnpJanet.Rpc.System
import CapnpJanet.Rpc.Embargo
import CapnpJanet.Rpc.Routing
import CapnpJanet.Rpc.Params
import CapnpJanet.Rpc.Steps
import CapnpJanet.Rpc.Hosted
import CapnpJanet.Rpc.JoinObjects
import CapnpJanet.Rpc.Provisions
import CapnpJanet.Rpc.Accounts
import CapnpJanet.Rpc.Questions
import CapnpJanet.Rpc.Pipelining
import CapnpJanet.Rpc.Client
import CapnpJanet.Rpc.Notices
import CapnpJanet.Rpc.Refusals
import CapnpJanet.Rpc.QuestionIds
import CapnpJanet.Rpc.FirstReturn
import CapnpJanet.Rpc.Streams
import CapnpJanet.Rpc.Vines
import CapnpJanet.Rpc.JoinOrder
import CapnpJanet.Rpc.Descriptors
import CapnpJanet.Rpc.CallFrames
import CapnpJanet.Rpc.Releases
import CapnpJanet.Rpc.Transforms
import CapnpJanet.Rpc.Codec
import CapnpJanet.Rpc.Handoff
import CapnpJanet.Value.Alike
import CapnpJanet.Canonical.Render
import CapnpJanet.Canonical.Function
import CapnpJanet.Value.Measure
import CapnpJanet.Canonical.FixedPoint
import CapnpJanet.Value.Copy
import CapnpJanet.Value.Nesting
import CapnpJanet.Message.ListViews
import CapnpJanet.Canonical.SlotCopy
import CapnpJanet.Canonical.ViewCopy
import CapnpJanet.Value.Reads
import CapnpJanet.Canonical.Meaning
import CapnpJanet.Canonical.Ledger
import CapnpJanet.Builder.Ceiling
import CapnpJanet.Builder.ListLengths
import CapnpJanet.Builder.Failures
import CapnpJanet.Memory.Bits
import CapnpJanet.Builder.Patches
import CapnpJanet.Janet.Cfuns
import CapnpJanet.Janet.Lists
import CapnpJanet.Janet.Pointers
import CapnpJanet.Codegen.Emit
import CapnpJanet.Codegen.Storage
import CapnpJanet.Codegen.Handles
import CapnpJanet.Codegen.Accessors
import CapnpJanet.Codegen.GroupClear
import CapnpJanet.Codegen.Arms
import CapnpJanet.Codegen.Names
import CapnpJanet.Codegen.Collisions
import CapnpJanet.Janet.BuildMessage
import CapnpJanet.Janet.Building
import CapnpJanet.Janet.Sections
import CapnpJanet.Builder.Held
import CapnpJanet.Builder.SameDraft
import CapnpJanet.Builder.RoundTrip
import CapnpJanet.Janet.ReadBack
import CapnpJanet.Janet.FirstSegment
