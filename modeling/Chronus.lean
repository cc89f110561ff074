import Chronus.Meta.Data
import Chronus.Meta.Client
import Chronus.Meta.Propagation
import Chronus.Meta.Auth
import Chronus.Meta.ShardQuery
import Chronus.Meta.Creation
import Chronus.Meta.Retention
import Chronus.Meta.Store
import Chronus.Meta.Session
import Chronus.Meta.Repeat
import Chronus.Meta.Precreation
import Chronus.Meta.Alignment
import Chronus.HH.Codec
import Chronus.HH.Processor
import Chronus.HH.Delivery
import Chronus.HH.Shutdown
import Chronus.HH.Gate
import Chronus.HH.Throughput
import Chronus.HH.Backoff
import Chronus.HH.Accounting
