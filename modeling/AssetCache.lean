import AssetCache.Cursor.Words
import AssetCache.Interface.Entries
import AssetCache.Main
import AssetCache.Placement.Words
import AssetCache.Proofs.ArchiveLookups
import AssetCache.Proofs.GroundItems
import AssetCache.Proofs.InterfaceForest
import AssetCache.Proofs.InterfaceLayout
import AssetCache.Proofs.InterfaceOrder
import AssetCache.Proofs.InterfaceRecords
import AssetCache.Proofs.LoadWritten
import AssetCache.Proofs.LoadingTogether
import AssetCache.Proofs.ManagerSession
import AssetCache.Proofs.MapFiles
import AssetCache.Proofs.NoteSettling
import AssetCache.Proofs.ObjectArithmetic
import AssetCache.Proofs.ObjectFiles
import AssetCache.Proofs.RecordContent
import AssetCache.Proofs.ReaderRuns
import AssetCache.Proofs.SectorArithmetic
import AssetCache.Proofs.SectorOwnership
import AssetCache.Proofs.TableSplitting
import AssetCache.Proofs.DefinitionLoading
import AssetCache.Proofs.ItemPiles
import AssetCache.Proofs.RegionListings
import AssetCache.Proofs.CursorRequests
import AssetCache.Proofs.CursorArithmetic
import AssetCache.Proofs.FieldSequences
import AssetCache.Proofs.RegionTables
import AssetCache.Proofs.NameHashes
