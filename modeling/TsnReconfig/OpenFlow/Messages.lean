import TsnReconfig.OpenFlow.FlowTable

/-!
# The messages between controller and switches

The packets the edge switches and the controller put into `OFP_Packet_In`,
`OFP_Packet_Out` and vendor messages, and the messages the controller sends.
-/

namespace TsnReconfig.OpenFlow

/-- An encapsulated packet. The first two are `EthernetIIFrameWithQTag` frames told apart
by their display strings, the last two are SRP frames. -/
inductive EncapsulatedPacket
  | ackForFlowMod (matchVersion : UInt16)
  | activationMessage (matchVersion : UInt16) (streamId : UInt64)
  | listenerReady (streamId : UInt64) (vlanIdentifier : UInt16)
  | talkerAdvertise (streamId : UInt64) (vlanIdentifier : UInt16)
      (sourceAddress destinationAddress : MACAddress)
  deriving DecidableEq, Repr

/-- What the controller sends to a switch. -/
inductive ToSwitch
  | flowMod (m : FlowMod)
  | packetOut (packet : EncapsulatedPacket)
  | vendor (packet : EncapsulatedPacket)
  deriving DecidableEq, Repr

end TsnReconfig.OpenFlow
