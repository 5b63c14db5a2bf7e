import ExFatSlim.SlotCache
import ExFatSlim.SlotCacheCoherence
import ExFatSlim.SlotCacheOps
import ExFatSlim.SlotCacheRuns
import ExFatSlim.SlotCacheFaults
import ExFatSlim.Fat
import ExFatSlim.Allocation
import ExFatSlim.Directory
import ExFatSlim.FileSystem
import ExFatSlim.File
import ExFatSlim.Api
import ExFatSlim.Lib.Leads
import ExFatSlim.Volume
import ExFatSlim.Bitmap
import ExFatSlim.AllocatorSearch
import ExFatSlim.AllocatorRuns
import ExFatSlim.LongestRuns
import ExFatSlim.Lib.Respects
import ExFatSlim.Tracking
import ExFatSlim.ReadOnly
import ExFatSlim.Touched
import ExFatSlim.Recording
import ExFatSlim.FileTracking
import ExFatSlim.Durability
import ExFatSlim.FatTable
import ExFatSlim.Chain
import ExFatSlim.Growth
import ExFatSlim.Cursor
import ExFatSlim.Splice
import ExFatSlim.WriteSplice
import ExFatSlim.Wandering
import ExFatSlim.Handle
import ExFatSlim.ReplyPool
import ExFatSlim.ReplyRuns
import ExFatSlim.Fs
import ExFatSlim.FsRuns
import ExFatSlim.Slots
import ExFatSlim.Scanning
import ExFatSlim.EntryCodec
import ExFatSlim.SetWriter
import ExFatSlim.EntryList
import ExFatSlim.ReadBack
import ExFatSlim.DirectoryEdits
import ExFatSlim.DirectoryRuns
import ExFatSlim.Opening
import ExFatSlim.HandleRuns
import ExFatSlim.ValidData
import ExFatSlim.Lookup
import ExFatSlim.Rewriting
import ExFatSlim.Reading
import ExFatSlim.ActorRead
import ExFatSlim.Raising
import ExFatSlim.FailedCalls
import ExFatSlim.Appending
import ExFatSlim.Freeing
import ExFatSlim.SetUpdates
import ExFatSlim.FreeRuns
import ExFatSlim.CopySectors
import ExFatSlim.Creating
import ExFatSlim.Copying
import ExFatSlim.Lib.RotatingSum
import ExFatSlim.NameHash
import ExFatSlim.NameLookup
import ExFatSlim.Lib.BitRuns
import ExFatSlim.PlainScan
import ExFatSlim.Marking
import ExFatSlim.ChainGrowth
import ExFatSlim.FlushOrder
import ExFatSlim.SetPlaces
import ExFatSlim.NameLimits
import ExFatSlim.Removal
import ExFatSlim.FatRuns
import ExFatSlim.NameBuffer
import ExFatSlim.VolumeLabel
import ExFatSlim.Mounting
import ExFatSlim.TimestampCodec
import ExFatSlim.Lib.Pulls
import ExFatSlim.UpcaseLookup
import ExFatSlim.ScanEnds
import ExFatSlim.DeviceScans
import ExFatSlim.Lib.Simulation
import ExFatSlim.ByteFile
import ExFatSlim.Unmounting
import ExFatSlim.Lib.Tree
import ExFatSlim.DirectorySets
import ExFatSlim.Folders
import ExFatSlim.Catalogs
import ExFatSlim.CatalogPaths
import ExFatSlim.WholeFiles
import ExFatSlim.FolderEdits
import ExFatSlim.CatalogEdits
import ExFatSlim.CatalogCalls
import ExFatSlim.CatalogChanges
import ExFatSlim.CatalogCreation
import ExFatSlim.NewFolders
import ExFatSlim.FolderPaths
import ExFatSlim.CatalogWrites
import ExFatSlim.FileCreation
import ExFatSlim.FolderRemoval
import ExFatSlim.CatalogMoves
import ExFatSlim.Renaming
import ExFatSlim.PathCalls
import ExFatSlim.PathRuns
import ExFatSlim.ClusterAccounts
import ExFatSlim.OpenedFiles
