import LogRelay.Main
import LogRelay.Rehearsal.Collector
import LogRelay.Rehearsal.Trial
import LogRelay.Proofs.Relay.Drain
import LogRelay.Proofs.Relay.Stages
import LogRelay.Proofs.Relay.Backlog
import LogRelay.Proofs.Desk.Order
import LogRelay.Proofs.InputLines.Intake
import LogRelay.Proofs.Link.Continuation
import LogRelay.Proofs.Relay.Resume
import LogRelay.Proofs.Desk.Draws
import LogRelay.Proofs.Zlib.Recipe
import LogRelay.Proofs.Zlib.Code
import LogRelay.Proofs.Zlib.Stream
import LogRelay.Proofs.Json.Quoted
import LogRelay.Proofs.Json.Doc
import LogRelay.Proofs.Event
import LogRelay.Proofs.Payload
import LogRelay.Proofs.Relay.LifeCycle
import LogRelay.Proofs.Batcher.Losses
import LogRelay.Proofs.Delivery.Exchanges
import LogRelay.Proofs.Link.SingleOperation
import LogRelay.Proofs.Address.Choice
import LogRelay.Proofs.Address.Normal
import LogRelay.Proofs.Settings
import LogRelay.Proofs.Rehearsal.Dialing
import LogRelay.Proofs.Link.Chronicle
import LogRelay.Proofs.Box
import LogRelay.Proofs.Json.Text
import LogRelay.Proofs.Messaging
import LogRelay.Proofs.Delivery.Circulation
