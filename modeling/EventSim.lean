import EventSim.Binary64.Basic
import EventSim.Binary64.Rounding
import EventSim.Corridor.Program
import EventSim.Corridor.Settings
import EventSim.Crash
import EventSim.Csv.Record
import EventSim.Csv.Table
import EventSim.Decimal.Layout
import EventSim.Decimal.Reader
import EventSim.Decimal.Shortest
import EventSim.Engine.Error
import EventSim.Engine.Round
import EventSim.Engine.Run
import EventSim.Engine.Scheduler
import EventSim.Engine.Worker
import EventSim.Files
import EventSim.Identity
import EventSim.Json.Number
import EventSim.Json.Record
import EventSim.Json.Value
import EventSim.Main
import EventSim.Message.Basic
import EventSim.Message.Inbox
import EventSim.Message.Postbox
import EventSim.Message.Queue
import EventSim.Network.Basic
import EventSim.Network.Builder
import EventSim.Network.Load
import EventSim.Network.Path
import EventSim.Network.Share
import EventSim.Proofs.Adjacency
import EventSim.Proofs.Barriers
import EventSim.Proofs.Cancellation
import EventSim.Proofs.Causality
import EventSim.Proofs.Conservation
import EventSim.Proofs.ContextAccounts
import EventSim.Proofs.DeliveryOrder
import EventSim.Proofs.DepartureWindows
import EventSim.Proofs.Departures
import EventSim.Proofs.DrawnPopulations
import EventSim.Proofs.EngineRound
import EventSim.Proofs.Exits
import EventSim.Proofs.Exploration
import EventSim.Proofs.Faults
import EventSim.Proofs.FirstEngine
import EventSim.Proofs.FreeFlow
import EventSim.Proofs.Genuine
import EventSim.Proofs.Grids
import EventSim.Proofs.HandBack
import EventSim.Proofs.Handover
import EventSim.Proofs.Heedless
import EventSim.Proofs.HorizonStep
import EventSim.Proofs.IdleRounds
import EventSim.Proofs.Interleaving
import EventSim.Proofs.Launch
import EventSim.Proofs.Leftovers
import EventSim.Proofs.Lifecycle
import EventSim.Proofs.LinkPaths
import EventSim.Proofs.LinkRoutes
import EventSim.Proofs.LongerStrips
import EventSim.Proofs.Lookahead
import EventSim.Proofs.MergedSets
import EventSim.Proofs.MessageNumbers
import EventSim.Proofs.NearestNumber
import EventSim.Proofs.NetworkTables
import EventSim.Proofs.PartitionIndependence
import EventSim.Proofs.Partitions
import EventSim.Proofs.Placement
import EventSim.Proofs.QueueContents
import EventSim.Proofs.QueueRefinement
import EventSim.Proofs.RandomDraws
import EventSim.Proofs.Recovery
import EventSim.Proofs.Refusals
import EventSim.Proofs.ReportFailures
import EventSim.Proofs.Requests
import EventSim.Proofs.RoadErrors
import EventSim.Proofs.RoadMessages
import EventSim.Proofs.RoadService
import EventSim.Proofs.RoadTurns
import EventSim.Proofs.RoundedQuotient
import EventSim.Proofs.RoundedSum
import EventSim.Proofs.Rounding
import EventSim.Proofs.Routing
import EventSim.Proofs.RunReports
import EventSim.Proofs.Runs
import EventSim.Proofs.SameSetup
import EventSim.Proofs.Scenarios
import EventSim.Proofs.SearchTurns
import EventSim.Proofs.SenderOrder
import EventSim.Proofs.SequentialLoop
import EventSim.Proofs.SequentialRefinement
import EventSim.Proofs.Setup
import EventSim.Proofs.SetupLog
import EventSim.Proofs.ShortestPaths
import EventSim.Proofs.SmallSteps
import EventSim.Proofs.Stages
import EventSim.Proofs.Staging
import EventSim.Proofs.StartUp
import EventSim.Proofs.Strips
import EventSim.Proofs.SumsOfTimes
import EventSim.Proofs.Termination
import EventSim.Proofs.TimeOrder
import EventSim.Proofs.Transcript
import EventSim.Proofs.TravelTimes
import EventSim.Proofs.Traversal
import EventSim.Proofs.Trips
import EventSim.Proofs.Truncation
import EventSim.Proofs.Turns
import EventSim.Proofs.UnitHistory
import EventSim.Proofs.WorkerRound
import EventSim.Report.Refusing
import EventSim.Report.RoundLog
import EventSim.Report.Row
import EventSim.Report.Tables
import EventSim.RunConfig
import EventSim.Time
import EventSim.Traffic.Draw
import EventSim.Traffic.Population
import EventSim.Traffic.Road
import EventSim.Traffic.Scenario
import EventSim.Unit.Context
import EventSim.Unit.Desk
import EventSim.Unit.RuleTable
import EventSim.Unit.Script
