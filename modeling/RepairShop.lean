import RepairShop.Access.Assign
import RepairShop.Access.Capability
import RepairShop.Access.Grants
import RepairShop.Access.Identity
import RepairShop.Api.Handler
import RepairShop.Api.Route
import RepairShop.Api.Token
import RepairShop.Audit.Canonical
import RepairShop.Board.Listing
import RepairShop.Board.Page
import RepairShop.Board.Sort
import RepairShop.Cache.Kv
import RepairShop.Cache.Store
import RepairShop.Catalog.Tree
import RepairShop.Error
import RepairShop.Json.Collection
import RepairShop.Json.Order
import RepairShop.Json.Read
import RepairShop.Json.Scan
import RepairShop.Json.Value
import RepairShop.Json.Whole
import RepairShop.Json.Write
import RepairShop.Main
import RepairShop.Number.Binary
import RepairShop.Number.Extended
import RepairShop.Number.Places
import RepairShop.Number.Shortest
import RepairShop.Number.Significant
import RepairShop.Orders.Aspect
import RepairShop.Orders.Comments
import RepairShop.Orders.Places
import RepairShop.Orders.Position
import RepairShop.Orders.Problems
import RepairShop.Orders.Rental
import RepairShop.Orders.Service
import RepairShop.Orders.Staff
import RepairShop.Orders.View
import RepairShop.Rental.Pricing
import RepairShop.Request.Field
import RepairShop.Request.Fragment
import RepairShop.Request.Order
import RepairShop.Scenario.Raw
import RepairShop.Scenario.Step
import RepairShop.Scenario.Web
import RepairShop.Scenario.World
import RepairShop.Script.Checks
import RepairShop.Seed
import RepairShop.Seed.Command
import RepairShop.Session.Txn
import RepairShop.Status.Flow
import RepairShop.Store.Db
import RepairShop.Store.Cell
import RepairShop.Store.Numeral
import RepairShop.Store.Schema
import RepairShop.Store.Table
import RepairShop.Text.Base64
import RepairShop.Text.Blank
import RepairShop.Text.Codec
import RepairShop.Text.Glob
import RepairShop.Text.Numeral
import RepairShop.Text.Printable
import RepairShop.Proofs.Boards
import RepairShop.Proofs.BoardSteps
import RepairShop.Proofs.BoardRuns
import RepairShop.Proofs.CatalogWalk
import RepairShop.Proofs.Footprint
import RepairShop.Proofs.Generation
import RepairShop.Proofs.GrantProtocol
import RepairShop.Proofs.GrantReads
import RepairShop.Proofs.Guarded
import RepairShop.Proofs.GuardedServices
import RepairShop.Proofs.KeyValue
import RepairShop.Proofs.Positions
import RepairShop.Proofs.ProblemLists
import RepairShop.Proofs.Quiet
import RepairShop.Proofs.Rollback
import RepairShop.Proofs.StatusChecks
import RepairShop.Proofs.StatusMoves
import RepairShop.Proofs.StatusServices
import RepairShop.Proofs.IntegerFields
import RepairShop.Proofs.SortKeys
import RepairShop.Proofs.FieldLocations
import RepairShop.Proofs.OrderRequests
import RepairShop.Proofs.ParentChains
import RepairShop.Proofs.GrantWrites
import RepairShop.Proofs.InsertRuns
import RepairShop.Proofs.Reseeding
import RepairShop.Proofs.SeedSteps
import RepairShop.Proofs.AuditValues
import RepairShop.Proofs.ParentLoading
import RepairShop.Proofs.DoubleModel
import RepairShop.Proofs.DecimalRounding
import RepairShop.Proofs.NearestDouble
import RepairShop.Proofs.SnapshotReparse
import RepairShop.Proofs.StatusRuns
import RepairShop.Proofs.StoredOrder
import RepairShop.Proofs.StatusWorkflow
import RepairShop.Proofs.AggregateWrites
import RepairShop.Proofs.PositionLocks
