import RelationalStore.AppDataFwk.SharedBlock.Parcel
import RelationalStore.Common.DelayActuator
import RelationalStore.DataAbility.DataAbilityPredicates
import RelationalStore.Dfx.CorruptedOnce
import RelationalStore.Dfx.FaultCounters
import RelationalStore.Rd.StepsInOrder
import RelationalStore.Rdb.AsyncRestore
import RelationalStore.Rdb.Attach
import RelationalStore.Rdb.Backup.Answer
import RelationalStore.Rdb.CloudTables
import RelationalStore.Rdb.ConnectionPool.AcquireAll
import RelationalStore.Rdb.ConnectionPool.Settings
import RelationalStore.Rdb.ConnectionPool.Trans
import RelationalStore.Rdb.DelayNotify
import RelationalStore.Rdb.Encrypt
import RelationalStore.Rdb.KeyFiles
import RelationalStore.Rdb.ModifyTime
import RelationalStore.Rdb.OpenCallback
import RelationalStore.Rdb.Predicates.Clear
import RelationalStore.Rdb.Predicates.Query
import RelationalStore.Rdb.Rekey.Failure
import RelationalStore.Rdb.Replica.Mirror
import RelationalStore.Rdb.Replica.Repair
import RelationalStore.Rdb.Replica.Strategy
import RelationalStore.Rdb.RestoreMasterDb
import RelationalStore.Rdb.ResultSet.Cache
import RelationalStore.Rdb.ResultSet.CacheBlock
import RelationalStore.Rdb.ResultSet.FailedRefill
import RelationalStore.Rdb.ResultSet.Pages
import RelationalStore.Rdb.ResultSet.TwoReaders
import RelationalStore.Rdb.SecretContent
import RelationalStore.Rdb.ServiceSwitch
import RelationalStore.Rdb.SqlAnonymous
import RelationalStore.Rdb.StoreCache
import RelationalStore.Rdb.StoreManager
import RelationalStore.Rdb.Transaction.ById
import RelationalStore.Rdb.TransactionImpl.QueryByStep
import RelationalStore.Rdb.Values.BatchInsert
import RelationalStore.Rdb.Values.MergeAssets
import RelationalStore.Rdb.Values.ValueOrder
import RelationalStore.Rdb.Values.ValuesBucket
import RelationalStore.Rdb.WriteStatements
import RelationalStore.RdbDataShareAdapter.ResultSetBridge
import RelationalStore.RdbServiceAdapter.Notifications
import RelationalStore.RdbServiceAdapter.SyncCallbacks
import RelationalStore.RdbServiceAdapter.TypesUtil
