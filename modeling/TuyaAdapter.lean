import TuyaAdapter.TuyaMemHeap.Canonical
import TuyaAdapter.TuyaMemHeap.Accounting
import TuyaAdapter.TuyaMemHeap.Routing
import TuyaAdapter.TuyaMemHeap.Creation
import TuyaAdapter.TuyaMemHeap.DoubleFree
import TuyaAdapter.TuyaMemHeap.ChunkChoice
import TuyaAdapter.TuyaMemHeap.LeakWalk
import TuyaAdapter.TklMemory.Usable
import TuyaAdapter.TklQueue.Waiting
import TuyaAdapter.TklQueue.Ownership
import TuyaAdapter.TklQueue.Deadline
import TuyaAdapter.TuyaRingbuf.Fifo
import TuyaAdapter.TuyaSmartpointer.Release
import TuyaAdapter.TklPwm.Failure
import TuyaAdapter.TklPwm.FrequencyChange
import TuyaAdapter.TklPwm.DutyScales
import TuyaAdapter.TklI2c.Pending
import TuyaAdapter.TklGpio.Armed
import TuyaAdapter.TklGpio.Callback
import TuyaAdapter.TklGpio.LevelFilter
import TuyaAdapter.WpaCommand.ApInfoFaithful
import TuyaAdapter.WpaCommand.ScanMerge
import TuyaAdapter.WpaCommand.WepChoice
import TuyaAdapter.WpaCommand.LineFromBuf
import TuyaAdapter.LinuxWifi.StationConf
import TuyaAdapter.TklWifi.RawFrame
import TuyaAdapter.TklWifi.StatusEvent
import TuyaAdapter.TklWifi.ScanAp
import TuyaAdapter.TklBt.UuidText
import TuyaAdapter.TklBt.AdvParse
import TuyaAdapter.TklOta.Image
import TuyaAdapter.TklOta.Handle
import TuyaAdapter.TklCamera.Mappings
import TuyaAdapter.TklVad.Bounds
import TuyaAdapter.TklVad.Frames
import TuyaAdapter.TklKws.Resources
import TuyaAdapter.TuyaHashmap.Traversal
import TuyaAdapter.TuyaHlist.Edits
import TuyaAdapter.TuyaSlist.Runs
import TuyaAdapter.TuyaList.Sequences
import TuyaAdapter.TuyaQueue.Batch
import TuyaAdapter.TuyaTools.DigitArray
import TuyaAdapter.TuyaTools.ByteSort
import TuyaAdapter.TuyaTools.HexText
import TuyaAdapter.TuyaTools.Str2num
import TuyaAdapter.BincAdapter.Events
import TuyaAdapter.BincApplication.Constant
import TuyaAdapter.BincLogger.Rotation
import TuyaAdapter.Eloop.Model
import TuyaAdapter.Eloop.Signals
import TuyaAdapter.Eloop.Sockets
import TuyaAdapter.Eloop.Time
import TuyaAdapter.Eloop.Timeouts
import TuyaAdapter.TklFlash.Contents
import TuyaAdapter.TklFlash.Partitions
import TuyaAdapter.WpaCtrl.Model
import TuyaAdapter.WpaCtrl.Replies
