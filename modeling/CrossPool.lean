import CrossPool.Lib.Runs
import CrossPool.Control.Barrier
import CrossPool.Control.Retirement
import CrossPool.Control.Heartbeat
import CrossPool.Control.Fleet
import CrossPool.Ecs.Policy
import CrossPool.Ecs.Accounting
import CrossPool.Ecs.Step
import CrossPool.Ecs.Oversubscription
import CrossPool.Transport.Mailbox
import CrossPool.Transport.Rounds
import CrossPool.Transport.Ownership
import CrossPool.Transport.Drain
import CrossPool.Transport.Announcement
import CrossPool.Transport.Integrity
import CrossPool.Transport.Layout
import CrossPool.Fabric.Protocol
import CrossPool.Fabric.Layout
import CrossPool.Fabric.Accessors
import CrossPool.Fabric.Arena
import CrossPool.Fabric.Coordinator
import CrossPool.Fabric.AtnAgent
import CrossPool.Fabric.FfnAgent
import CrossPool.Fabric.Generation
import CrossPool.Fabric.Control
import CrossPool.Fabric.Failure
import CrossPool.Fabric.IdleLane
import CrossPool.Fabric.Taken
import CrossPool.Fabric.Ledger
import CrossPool.Fabric.Books
import CrossPool.Fabric.Lease
import CrossPool.Fabric.Rendezvous
import CrossPool.Fabric.Post
import CrossPool.Fabric.Dispatch
import CrossPool.Fabric.Outbox
import CrossPool.Fabric.Senders
import CrossPool.Fabric.Coordination
import CrossPool.Fabric.Convergence
import CrossPool.Fabric.Agreement
import CrossPool.Fabric.Delivery
import CrossPool.Fabric.Conservation
import CrossPool.Fabric.Submissions
import CrossPool.Lib.Threads
import CrossPool.Lib.Seqlock
import CrossPool.Lib.Broadcast
import CrossPool.Lib.Grid
import CrossPool.Lib.Matching
import CrossPool.Lib.Loops
import CrossPool.Lib.Grouping
import CrossPool.Lib.Spans
import CrossPool.Lib.Undo
import CrossPool.Lib.Lanes
import CrossPool.Lib.IntegerProgram
import CrossPool.Lib.Layout
import CrossPool.Placement.Projection
import CrossPool.Placement.Solve
import CrossPool.Placement.Exact
import CrossPool.Lib.Tally
import CrossPool.Placement.Memory
import CrossPool.Placement.Presence
import CrossPool.Placement.Induced
import CrossPool.Placement.Stages
import CrossPool.Placement.Bounds
import CrossPool.Placement.Domains
import CrossPool.Ecs.Channel
import CrossPool.Ecs.Vmm
import CrossPool.Ecs.Journal
import CrossPool.Ecs.Layout
import CrossPool.Ecs.Allocator
import CrossPool.Ecs.Allocation
import CrossPool.Ecs.Retirement
import CrossPool.Ecs.Custody
import CrossPool.Ecs.Funding
import CrossPool.Ecs.Attempt
import CrossPool.Control.Registration
import CrossPool.Lib.Monitor
import CrossPool.Control.Plane
import CrossPool.Control.Membership
import CrossPool.Control.Evolution
import CrossPool.Control.Turnover
import CrossPool.Control.Generations
import CrossPool.Control.Formation
import CrossPool.Control.Registry
import CrossPool.Control.Broker
import CrossPool.Control.Leasing
import CrossPool.FfnAgent.Execution
import CrossPool.FfnAgent.Installation
import CrossPool.FfnAgent.Reduction
import CrossPool.FfnAgent.Routing
import CrossPool.FfnAgent.Calibration
import CrossPool.FfnAgent.Envelope
import CrossPool.FfnAgent.Staging
import CrossPool.FfnAgent.Loading
import CrossPool.Lib.Words
import CrossPool.FfnAgent.Parameterization
import CrossPool.FfnAgent.Template
import CrossPool.FfnAgent.Binding
import CrossPool.Lib.Bisection
import CrossPool.Ecs.Reference
import CrossPool.Ecs.Prefill
import CrossPool.Lib.Rows
import CrossPool.Ecs.Coordinates
import CrossPool.Fabric.Puts
import CrossPool.Fabric.Exclusion
