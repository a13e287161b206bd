import Zallet.Prog.Exec
import Zallet.Sync.ForkPoint
import Zallet.Sync.Divergence
import Zallet.Sync.Assertions
import Zallet.Sync.Position
import Zallet.Sync.Retry
import Zallet.Sync.ForkSearch
import Zallet.Sync.Rewind
import Zallet.Sync.BusyLoop
import Zallet.Sync.Checked
import Zallet.Zebra.Finalized
import Zallet.Zebra.Streams
import Zallet.Backends
import Zallet.Zebra.TreeState
import Zallet.Rpc.Privacy
import Zallet.Zebra.Cache
import Zallet.Keystore.Kept
import Zallet.Rpc.Operations
import Zallet.Rpc.Amounts
import Zallet.Rpc.Leftovers
import Zallet.Data.Table
import Zallet.Migrate.Retry
import Zallet.Rpc.Payments
import Zallet.Rpc.ListUnspent
import Zallet.Rpc.ViewTransaction
import Zallet.Rpc.WalletInternal
import Zallet.Rpc.Attribution
import Zallet.Rpc.RawTransaction
import Zallet.Keystore.Recipients
import Zallet.Migrate.Enriched
import Zallet.Migrate.Sink
import Zallet.Migrate.WatchOnly
import Zallet.Data.Paging
import Zallet.Rpc.DecodeScript
import Zallet.Rpc.ListAddresses
import Zallet.Rpc.ListTransactions
import Zallet.Rpc.HttpCompatibility
import Zallet.Zebra.Mempool
import Zallet.Rpc.AccountNumber
import Zallet.Data.BaseEncoding
import Zallet.Data.Text
import Zallet.Rpc.Authorization
import Zallet.Data.Reorder
import Zallet.Migrate.ZcashConf
import Zallet.Migrate.ConfLines
import Zallet.Migrate.ConfOrder
import Zallet.Database.Lives
import Zallet.Data.CheckedSum
import Zallet.Prog.Fatal
import Zallet.Spend.Authority
import Zallet.Spend.Locked
import Zallet.Spend.Recipients
import Zallet.Keystore.Recovered
import Zallet.Data.Directory
import Zallet.Process.Cookie
import Zallet.Process.Credentials
import Zallet.Process.Identity
import Zallet.Process.Staged
import Zallet.Process.Unclobbered
import Zallet.Data.Ancestry
import Zallet.Rpc.Balances
import Zallet.Zaino.Chain
import Zallet.Zaino.ForkPoint
import Zallet.Data.Fill
import Zallet.Network
import Zallet.Rpc.AddressForAccount
import Zallet.Backends.Assertions
