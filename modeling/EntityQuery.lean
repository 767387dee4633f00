import EntityQuery.Client.Call
import EntityQuery.Connection.Layer
import EntityQuery.Operation.Document
import EntityQuery.Proofs.Batches
import EntityQuery.Proofs.CompiledTruth
import EntityQuery.Proofs.Content
import EntityQuery.Proofs.Distinct
import EntityQuery.Proofs.FailedWrites
import EntityQuery.Proofs.Footprints
import EntityQuery.Proofs.Lookups
import EntityQuery.Proofs.Meaning
import EntityQuery.Proofs.Operands
import EntityQuery.Proofs.RelatedSets
import EntityQuery.Proofs.RelatedSetsAgain
import EntityQuery.Proofs.RelatedUpdates
import EntityQuery.Proofs.Sample
import EntityQuery.Report
import EntityQuery.Schema.Document
import EntityQuery.Store.Backend
import EntityQuery.Window.Document
import EntityQuery.Proofs.Insertions
import EntityQuery.Proofs.Preserved
import EntityQuery.Proofs.CreatedRows
import EntityQuery.Proofs.ReturnedRows
import EntityQuery.Proofs.Outcomes
import EntityQuery.Proofs.OwnRow
import EntityQuery.Proofs.PendingLookups
import EntityQuery.Proofs.UpdatesInTurn
import EntityQuery.Proofs.KeyTexts
import EntityQuery.Proofs.ReachedRows
import EntityQuery.Proofs.SharedRows
import EntityQuery.Proofs.Includes
import EntityQuery.Proofs.ConditionText
import EntityQuery.Proofs.UniqueStates
import EntityQuery.Proofs.FilledColumns
import EntityQuery.Proofs.IntegerRanges
import EntityQuery.Proofs.OneTransaction
import EntityQuery.Proofs.WellDeclared
import EntityQuery.Proofs.Placeholders
import EntityQuery.Proofs.StatementOutline
import EntityQuery.Proofs.BoundOperands
import EntityQuery.Proofs.DigitTexts
import EntityQuery.Proofs.IsoTexts
import EntityQuery.Proofs.JsonTexts
import EntityQuery.Proofs.CanonicalTexts
import EntityQuery.Proofs.KeyRoundTrips
import EntityQuery.Proofs.DocumentTexts
import EntityQuery.Proofs.KeyEquality
import EntityQuery.Proofs.Doubles
import EntityQuery.Proofs.NumberTexts
import EntityQuery.Proofs.ValueTexts
import EntityQuery.Proofs.JoinedParts
import EntityQuery.Proofs.FirstRows
import EntityQuery.Proofs.MergeSorts
import EntityQuery.Proofs.GroupedColumns
import EntityQuery.Proofs.GroupedRows
import EntityQuery.Proofs.PlainConditions
import EntityQuery.Proofs.CursorPages
import EntityQuery.Proofs.LikePatterns
import EntityQuery.Proofs.Subqueries
import EntityQuery.Proofs.AcceptedPredicates
import EntityQuery.Proofs.AddedPredicates
import EntityQuery.Proofs.OrderedGroups
import EntityQuery.Proofs.GroupAggregates
import EntityQuery.Proofs.InsertTexts
import EntityQuery.Proofs.BackwardReads
import EntityQuery.Proofs.OwnedRelations
import EntityQuery.Proofs.TargetRelations
import EntityQuery.Proofs.RelatedChanges
import EntityQuery.Proofs.RowPlaces
import EntityQuery.Proofs.SoleRelated
import EntityQuery.Proofs.RequiredRelations
import EntityQuery.Proofs.RecordedSelects
import EntityQuery.Proofs.RelatedCounts
import EntityQuery.Proofs.ResolvedLookups
import EntityQuery.Proofs.BulkWrites
import EntityQuery.Proofs.PagedReads
import EntityQuery.Proofs.MembershipTruths
import EntityQuery.Proofs.ReorderedDocuments
import EntityQuery.Proofs.SettledValues
import EntityQuery.Proofs.IntegerTexts
import EntityQuery.Proofs.ParsedKeys
import EntityQuery.Proofs.KeyConversions
import EntityQuery.Proofs.DayTexts
import EntityQuery.Proofs.ReorderedSchemas
import EntityQuery.Proofs.RelayedErrors
import EntityQuery.Proofs.PooledClients
import EntityQuery.Proofs.LayerTransactions
import EntityQuery.Proofs.LayerCalls
import EntityQuery.Proofs.NameMatching
import EntityQuery.Proofs.RegisteredFetchers
import EntityQuery.Proofs.FreshKeys
import EntityQuery.Proofs.RowOrders
import EntityQuery.Proofs.ContainedDocuments
import EntityQuery.Proofs.PascalNames
