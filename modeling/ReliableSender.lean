import ReliableSender.Engine.History
import ReliableSender.Sender.History
import ReliableSender.Listening.Round
import ReliableSender.Transfer
import ReliableSender.Main
import ReliableSender.Transport.Channel
import ReliableSender.Transport.Datagram
import ReliableSender.Proofs.SendBuffer
import ReliableSender.Proofs.SendBuffer.History
import ReliableSender.Proofs.Engine.Effects
import ReliableSender.Proofs.Engine.Steps
import ReliableSender.Proofs.Chronicle
import ReliableSender.Proofs.Engine.Overtaken
import ReliableSender.Proofs.Engine.Window
import ReliableSender.Proofs.Engine.Answering
import ReliableSender.Proofs.Packet.LossReport
import ReliableSender.Proofs.Packet.RoundTrip
import ReliableSender.Proofs.Packet.WriteBack
import ReliableSender.Proofs.Packet.Expansion
import ReliableSender.Proofs.Sender.Ledger
import ReliableSender.Proofs.Sender.Places
import ReliableSender.Proofs.Sender.Outstanding
import ReliableSender.Proofs.Engine.Fragment
import ReliableSender.Proofs.Sender.Stream
import ReliableSender.Proofs.Engine.FeedbackOrder
import ReliableSender.Proofs.Engine.InOrder
import ReliableSender.Proofs.Engine.NoStall
import ReliableSender.Proofs.Engine.LossService
import ReliableSender.Proofs.Engine.WireTrace
import ReliableSender.Proofs.Engine.OverWire
import ReliableSender.Proofs.Engine.Reconciliation
import ReliableSender.Proofs.Engine.Drain
import ReliableSender.Proofs.Engine.Cumulative
import ReliableSender.Proofs.Engine.Partition
import ReliableSender.Proofs.Sender.Ended
import ReliableSender.Proofs.Sender.Pending
import ReliableSender.Proofs.Transport.Encoding
import ReliableSender.Proofs.Sender.Written
import ReliableSender.Proofs.Bytes
import ReliableSender.Proofs.Packet.Entries
import ReliableSender.Proofs.Packet.Compression
import ReliableSender.Proofs.Packet.Grammar
import ReliableSender.Proofs.Packet.DataDatagram
import ReliableSender.Proofs.Packet.Appending
import ReliableSender.Proofs.Engine.FailedSteps
import ReliableSender.Proofs.Sender.SentOut
import ReliableSender.Proofs.Engine.Encodable
import ReliableSender.Proofs.Sender.Tried
import ReliableSender.Proofs.Sender.LifeCycle
import ReliableSender.Proofs.Sender.MessageNumbers
import ReliableSender.Proofs.Config.Blank
import ReliableSender.Proofs.Listening.Turns
import ReliableSender.Proofs.Listening.Silence
