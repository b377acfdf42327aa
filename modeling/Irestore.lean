import Irestore.Library.Bytes
import Irestore.Library.Siblings
import Irestore.Library.Preorder
import Irestore.Library.RefGraph
import Irestore.Library.CMemory
import Irestore.Library.HashTable
import Irestore.Plist.Node
import Irestore.Plist.BinaryParse
import Irestore.Plist.BinaryRead
import Irestore.Plist.BinaryHistory
import Irestore.Plist.BinaryLink
import Irestore.Plist.BinarySafety
import Irestore.Plist.BinaryUnfold
import Irestore.Plist.BinaryCompare
import Irestore.Plist.BinaryCompareLaws
import Irestore.Plist.BinaryWrite
import Irestore.Plist.BinarySerialize
import Irestore.Plist.BinaryFile
import Irestore.Plist.BinaryEncode
import Irestore.Plist.BinaryCounts
import Irestore.Plist.BinaryCoverage
import Irestore.Plist.BinaryOutput
import Irestore.Plist.BinarySharing
import Irestore.Plist.BinaryRoundTrip
import Irestore.Library.Program
import Irestore.Library.Trace
import Irestore.Afc.Client
import Irestore.Afc.Operations
import Irestore.Afc.Framing
import Irestore.Afc.Sessions
import Irestore.Afc.Replies
import Irestore.Afc.RubyService
import Irestore.Plist.Dict
import Irestore.Plist.Access
import Irestore.Library.Records
import Irestore.Img3.Element
import Irestore.Img3.File
import Irestore.Img3.Slots
import Irestore.Img3.Signing
import Irestore.Img3.Order
import Irestore.Img3.RubyFile
import Irestore.Library.Xml
import Irestore.Plist.XmlFormat
import Irestore.Library.Base64
import Irestore.Plist.Xml
import Irestore.Plist.XmlRoundTrip
import Irestore.Lockdown.Client
import Irestore.Lockdown.Sessions
import Irestore.MobileSync.Client
import Irestore.MobileSync.Sessions
import Irestore.Restore.Device
import Irestore.Restore.Nor
import Irestore.Restore.Filesystem
import Irestore.Service.PropertyList
import Irestore.Usbmux.Packet
import Irestore.Usbmux.Requests
import Irestore.Usbmux.Devices
import Irestore.PlistCpp.Structures
import Irestore.PlistCpp.Mirror
import Irestore.PlistCpp.Copies
import Irestore.PlistCpp.Freeing
import Irestore.PlistCpp.Steps
import Irestore.PlistCpp.Breaks
import Irestore.PlistCpp.Lifetimes
import Irestore.Recovery.Callbacks
import Irestore.Afc.Reads
import Irestore.Afc.Splits
import Irestore.Usbmux.Python
import Irestore.Usbmux.Safety
import Irestore.Usbmux.Socket
import Irestore.Img3.Rewriting
import Irestore.Img3.Safety
import Irestore.Afc.Writes
import Irestore.Img3.RubyUpdates
import Irestore.Plist.Array
import Irestore.Afc.DeviceInfo
import Irestore.MobileSync.Changes
import Irestore.DeviceLink.VersionExchange
import Irestore.MobileBackup.Frames
import Irestore.MobileBackup.LocalFiles
import Irestore.MobileBackup.SendFile
import Irestore.MobileBackup.ReceiveFiles
import Irestore.Restore.Validation
import Irestore.Usbmux.Relay
import Irestore.InstallationProxy.Replies
import Irestore.Library.Chunks
import Irestore.Usbmux.TcpRelay
import Irestore.Recovery.SendBuffer
import Irestore.Restore.TssBlob
import Irestore.Plist.AccessPath
import Irestore.Afc.StringsList
import Irestore.Service.SslRead
import Irestore.NotificationProxy.Client
import Irestore.NotificationProxy.Interleavings
import Irestore.NotificationProxy.Freeing
import Irestore.NotificationProxy.Deliveries
import Irestore.Service.Exchange
import Irestore.Lockdown.Pairing
import Irestore.Lockdown.Handshake
import Irestore.MobileBackup.Session
import Irestore.MobileBackup.Conversation
import Irestore.Library.Moves
import Irestore.MobileBackup.Moves
import Irestore.MobileBackup.Downloads
import Irestore.Restore.Boot
import Irestore.Library.Script
import Irestore.Restore.BootOrder
import Irestore.Restore.Main
import Irestore.Recovery.RubyUpload
import Irestore.Restore.RubyAsr
import Irestore.Restore.Tss
import Irestore.Usbmux.PythonClient
