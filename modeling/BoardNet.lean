import BoardNet.Board
import BoardNet.Identity
import BoardNet.Proofs.Addressing
import BoardNet.Proofs.Board.Downtime
import BoardNet.Proofs.Board.Effort
import BoardNet.Proofs.Board.Listener
import BoardNet.Proofs.Board.Soleness
import BoardNet.Proofs.Bus.Sharing
import BoardNet.Proofs.Http.Deadlines
import BoardNet.Proofs.Http.Delivery
import BoardNet.Proofs.Http.Forgetting
import BoardNet.Proofs.Http.Grammar
import BoardNet.Proofs.Http.Losses
import BoardNet.Proofs.Http.Replies
import BoardNet.Proofs.Http.Sampling
import BoardNet.Proofs.Http.Segmentation
import BoardNet.Proofs.Http.StatusPages
import BoardNet.Proofs.Link.Escalation
import BoardNet.Proofs.Link.LeaseBudget
import BoardNet.Proofs.Link.Persistence
import BoardNet.Proofs.Link.Pulses
import BoardNet.Proofs.Link.ResetLine
import BoardNet.Proofs.Shift.Board
import BoardNet.Proofs.WebSocket.AcceptKey
import BoardNet.Proofs.WebSocket.Broadcast
import BoardNet.Proofs.WebSocket.Commands
import BoardNet.Proofs.WebSocket.Forgetting
import BoardNet.Proofs.WebSocket.Lines
import BoardNet.Proofs.WebSocket.Queue
import BoardNet.Proofs.WebSocket.Replies
import BoardNet.Proofs.WebSocket.Stay
import BoardNet.Sim.Bench
