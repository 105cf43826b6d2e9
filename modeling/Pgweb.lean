import Pgweb.Cache.Item
import Pgweb.Cache.Sort
import Pgweb.Cache.Evict
import Pgweb.Cache.Store
import Pgweb.Cache.Size
import Pgweb.Cache.Expiry
import Pgweb.Cache.Bounds
import Pgweb.Cache.Refine
import Pgweb.Cache.Policy
import Pgweb.Cache.Key
import Pgweb.Client.Session
import Pgweb.Client.Role
import Pgweb.Client.Filter
import Pgweb.Client.History
import Pgweb.Client.Table
import Pgweb.Client.Shared
