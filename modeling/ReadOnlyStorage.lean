import ReadOnlyStorage.Config.Json
import ReadOnlyStorage.Config.SideFile
import ReadOnlyStorage.Config.WatchedDir
import ReadOnlyStorage.Config.Watcher
import ReadOnlyStorage.Store.Scheduler
import ReadOnlyStorage.Store.Lifecycle
import ReadOnlyStorage.Store.Sync
import ReadOnlyStorage.Management.Middleware
import ReadOnlyStorage.Management.BruteForce
import ReadOnlyStorage.Management.Storage
import ReadOnlyStorage.Management.Plane
