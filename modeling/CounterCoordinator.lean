import CounterCoordinator.Main
import CounterCoordinator.Network
import CounterCoordinator.Retry
import CounterCoordinator.Service
import CounterCoordinator.Json.Reader
import CounterCoordinator.Proofs.Fresh
import CounterCoordinator.Proofs.Message.RoundTrip
import CounterCoordinator.Proofs.Counters.Assignment
import CounterCoordinator.Proofs.Waitlist.Futures
import CounterCoordinator.Proofs.Waitlist.Load
import CounterCoordinator.Proofs.Manager.Turn
import CounterCoordinator.Proofs.Manager.Life
import CounterCoordinator.Proofs.Manager.Accounting
import CounterCoordinator.Proofs.Network.Chronicle
import CounterCoordinator.Proofs.Network.Provenance
import CounterCoordinator.Proofs.Network.Answers
import CounterCoordinator.Proofs.Deployment.History
import CounterCoordinator.Proofs.Topology.Election
import CounterCoordinator.Proofs.Deployment.SoleIssuer
import CounterCoordinator.Proofs.Counters.Ledger
import CounterCoordinator.Proofs.Waitlist.Entries
import CounterCoordinator.Proofs.Deployment.Departures
import CounterCoordinator.Proofs.Network.Carriage
import CounterCoordinator.Proofs.Network.Commits
import CounterCoordinator.Proofs.Network.Quiescence
import CounterCoordinator.Proofs.Manager.Roles
import CounterCoordinator.Proofs.Message.Prefix
import CounterCoordinator.Proofs.Waitlist.Sweep
import CounterCoordinator.Proofs.Manager.Resync
import CounterCoordinator.Proofs.Waitlist.Swept
import CounterCoordinator.Proofs.Waitlist.Race
import CounterCoordinator.Proofs.Waitlist.Scans
import CounterCoordinator.Proofs.Manager.Tables
import CounterCoordinator.Proofs.Waitlist.Registry
import CounterCoordinator.Proofs.Waitlist.LifeCycle
import CounterCoordinator.Proofs.Topology.Handover
import CounterCoordinator.Proofs.Network.Strays
import CounterCoordinator.Proofs.Network.Exchange
import CounterCoordinator.Proofs.Deployment.Effects
import CounterCoordinator.Proofs.Deployment.FreshTransactions
import CounterCoordinator.Proofs.Deployment.SendOrder
import CounterCoordinator.Proofs.Manager.Tally
import CounterCoordinator.Proofs.Manager.Inert
import CounterCoordinator.Proofs.Manager.Cancellation
import CounterCoordinator.Proofs.Manager.Sending
import CounterCoordinator.Proofs.Deployment.Promises
import CounterCoordinator.Proofs.Simulation.Course
import CounterCoordinator.Proofs.Simulation.Crew
import CounterCoordinator.Proofs.Simulation.Start
import CounterCoordinator.Proofs.Simulation.Work
import CounterCoordinator.Proofs.Simulation.Settling
import CounterCoordinator.Proofs.Simulation.Trace
import CounterCoordinator.Proofs.Simulation.Reports
import CounterCoordinator.Proofs.Simulation.Accounting
import CounterCoordinator.Proofs.Deployment.Underway
import CounterCoordinator.Proofs.Simulation.Provisions
import CounterCoordinator.Proofs.Simulation.Calm
import CounterCoordinator.Proofs.Simulation.Exact
import CounterCoordinator.Proofs.Text.Parts
import CounterCoordinator.Proofs.Span.Grammar
import CounterCoordinator.Proofs.Node.Text
import CounterCoordinator.Proofs.Json.Legible
import CounterCoordinator.Proofs.Topology.Agreement
import CounterCoordinator.Proofs.Topology.Membership
import CounterCoordinator.Proofs.Topology.Received
import CounterCoordinator.Proofs.Metrics.Buckets
import CounterCoordinator.Proofs.Retry.Rounds
import CounterCoordinator.Proofs.Transaction.Interleaving
