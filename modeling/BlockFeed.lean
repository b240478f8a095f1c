import BlockFeed.Main
import BlockFeed.Scenario.Calls
import BlockFeed.Scenario.Surroundings
import BlockFeed.Simulation.ForgedChain
import BlockFeed.Simulation.Rehearsal
import BlockFeed.Config.Json
import BlockFeed.Proofs.Feed.Delivery
import BlockFeed.Proofs.Node.MultiplexedDelivery
import BlockFeed.Proofs.Node.StepBack
import BlockFeed.Proofs.Walker.Course
import BlockFeed.Proofs.Walker.Order
import BlockFeed.Proofs.Walker.Upkept
import BlockFeed.Proofs.Walker.Rehearsed
import BlockFeed.Proofs.Walker.Gapless
import BlockFeed.Proofs.Walker.Resumption
import BlockFeed.Proofs.Walker.Confined
import BlockFeed.Proofs.Walker.Rewound
import BlockFeed.Proofs.Walker.Bounded
import BlockFeed.Proofs.Walker.Passing
import BlockFeed.Proofs.Fetcher.Readiness
import BlockFeed.Proofs.Feed.Handover
import BlockFeed.Proofs.Fetcher.Unnoticed
import BlockFeed.Proofs.Fetcher.Balance
import BlockFeed.Proofs.Wire.Splitting
import BlockFeed.Proofs.Wire.Handshake
import BlockFeed.Proofs.Chain.HeaderViews
import BlockFeed.Proofs.Bypass.Configured
import BlockFeed.Proofs.PointCache.Journal
import BlockFeed.Proofs.Simulation.Tracking
import BlockFeed.Proofs.Walker.Landing
import BlockFeed.Proofs.Outbox.Traffic
import BlockFeed.Proofs.Node.Backoff
import BlockFeed.Proofs.Bypass.Canonical
import BlockFeed.Proofs.Bypass.Forgetting
import BlockFeed.Proofs.Node.BlockBatch
import BlockFeed.Proofs.Window.Clamped
import BlockFeed.Proofs.Bypass.Grammar
import BlockFeed.Proofs.PointCache.TypedView
import BlockFeed.Proofs.Fetcher.Bounds
import BlockFeed.Proofs.Wire.SelfDelimiting
import BlockFeed.Proofs.Node.Agreement
import BlockFeed.Proofs.Chain.HashReading
import BlockFeed.Proofs.Feed.Launch
import BlockFeed.Proofs.Walker.Descent
import BlockFeed.Proofs.PointCache.Retention
