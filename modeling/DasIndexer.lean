import DasIndexer.Lib.Sql
import DasIndexer.Bytes
import DasIndexer.Json
import DasIndexer.Lib.Latest
import DasIndexer.Programs
import DasIndexer.Bubblegum.Instruction
import DasIndexer.Bubblegum.Db
import DasIndexer.Bubblegum.Columns
import DasIndexer.Bubblegum.Tables
import DasIndexer.Bubblegum.Events
import DasIndexer.Bubblegum.Cells
import DasIndexer.Bubblegum.Convergence
import DasIndexer.Mainnet
import DasIndexer.Dao
import DasIndexer.Bubblegum.CreatorsShown
import DasIndexer.ChangeLogs
import DasIndexer.Lib.Merkle
import DasIndexer.MerkleProofs
import DasIndexer.Accounts.AssetUpserts
import DasIndexer.Accounts.Token
import DasIndexer.Accounts.TokenMetadata
import DasIndexer.Accounts.MplCore
import DasIndexer.Accounts.Columns
import DasIndexer.Accounts.Updates
import DasIndexer.Accounts.Saves
import DasIndexer.Accounts.Runs
import DasIndexer.Accounts.OneUpdate
import DasIndexer.Accounts.Freshness
import DasIndexer.Decompression
import DasIndexer.DecompressedShown
import DasIndexer.Accounts.Convergence
import DasIndexer.Accounts.NftOrder
import DasIndexer.Accounts.Ownership
import DasIndexer.Accounts.CoreBurns
import DasIndexer.Accounts.Editions
import DasIndexer.Accounts.Removals
import DasIndexer.Versions
import DasIndexer.ProofBatch
import DasIndexer.Accounts.CollectionAuthority
import DasIndexer.Backfill.Items
import DasIndexer.Bubblegum.Failures
import DasIndexer.Backfill.Pass
import DasIndexer.Backfill.CleanUp
import DasIndexer.Lib.Leases
import DasIndexer.Backfill.Locks
import DasIndexer.Backfill.PlugGap
import DasIndexer.Ops.TreeGaps
import DasIndexer.Ops.Purge
import DasIndexer.Tasks.Manager
import DasIndexer.Tasks.Runners
import DasIndexer.Tasks.Downloads
import DasIndexer.Lib.IndexMap
import DasIndexer.Lib.Paging
import DasIndexer.Tasks.StoredUrl
import DasIndexer.Api.Pagination
import DasIndexer.Api.Rpc
import DasIndexer.Api.Listings
import DasIndexer.Api.Related
import DasIndexer.Api.Search
import DasIndexer.Api.Requests
import DasIndexer.Api.Pages
import DasIndexer.Api.CursorPages
import DasIndexer.Api.NumberedPages
import DasIndexer.Api.KeyedListings
import DasIndexer.Api.IgnoredCursors
import DasIndexer.Api.OneAsset
import DasIndexer.Api.Answers
import DasIndexer.Api.CreatorQueries
import DasIndexer.Api.Indexed
import DasIndexer.Blockbuster.Ordering
import DasIndexer.Blockbuster.Bubblegum
import DasIndexer.Blockbuster.CallTrees
import DasIndexer.Blockbuster.Borsh
import DasIndexer.Core.QueuePool
import DasIndexer.Backfill.MissingData
import DasIndexer.Lib.Backward
import DasIndexer.SolanaRpc
import DasIndexer.Ops.Crawl
import DasIndexer.SignatureCrawlers
import DasIndexer.Accounts.GroupAuthorities
import DasIndexer.Accounts.CoreSaves
import DasIndexer.AuthorityOrigins
import DasIndexer.Blockbuster.Malformed
import DasIndexer.TransactionBundles
import DasIndexer.Api.SearchDefaults
import DasIndexer.Api.NameSearch
import DasIndexer.Api.TokenAmounts
import DasIndexer.Tasks.Attempts
import DasIndexer.Ops.TreeStatus
import DasIndexer.Blockbuster.TokenInscriptions
import DasIndexer.Accounts.Extensions
import DasIndexer.Lib.Reorder
import DasIndexer.Ops.ReadTree
import DasIndexer.Accounts.PluginKeys
import DasIndexer.Lib.Neighbours
import DasIndexer.Api.ManyAssets
import DasIndexer.Api.GroupSize
import DasIndexer.ClosedMetadata
import DasIndexer.Api.ContentFiles
import DasIndexer.Bubblegum.Executions
import DasIndexer.Lib.Pipeline
import DasIndexer.Ops.Backfiller
import DasIndexer.Streams.AtLeastOnce
import DasIndexer.Streams.Recovery
import DasIndexer.Bubblegum.Ledger
import DasIndexer.Bubblegum.LedgerProofs
import DasIndexer.Streams.LedgerShown
import DasIndexer.Api.LedgerAnswers
import DasIndexer.Api.LedgerListings
import DasIndexer.Streams.LedgerAnswered
