import CubeSatComm.Lib.CInteger
import CubeSatComm.Lib.Loop
import CubeSatComm.Lib.Memory
import CubeSatComm.Lib.Feed
import CubeSatComm.Posix.Port
import CubeSatComm.Loris.Antenna
import CubeSatComm.Loris.ReedSolomon
import CubeSatComm.Loris.RsTransfer
import CubeSatComm.Lib.Decimal
import CubeSatComm.Posix.Stdio
import CubeSatComm.Loris.FileNotice
import CubeSatComm.Loris.FileFraming
import CubeSatComm.Loris.Sending
import CubeSatComm.Loris.FileSender
import CubeSatComm.Loris.FileTransfer
import CubeSatComm.Loris.SendLoss
import CubeSatComm.Lib.Transition
import CubeSatComm.Loris.FifoHandshake
import CubeSatComm.Loris.AntennaInit
import CubeSatComm.Csp.Packet
import CubeSatComm.Csp.Buffer
import CubeSatComm.Csp.FifoDriver
import CubeSatComm.Csp.FifoRoundTrip
import CubeSatComm.Csp.ClientLoop
import CubeSatComm.Lib.Receiver
import CubeSatComm.Csp.FifoReceiver
import CubeSatComm.Csp.ReceivedLengths
import CubeSatComm.Csp.RxOwnership
import CubeSatComm.Lib.Recycling
import CubeSatComm.Csp.Server
import CubeSatComm.Csp.ServerPrint
import CubeSatComm.Loris.RsReader
import CubeSatComm.Loris.RsSplitReads
import CubeSatComm.Loris.RsDecodeCalls
import CubeSatComm.Loris.RsChunking
import CubeSatComm.Loris.FileReads
import CubeSatComm.Loris.WouldBlock
import CubeSatComm.Loris.ByteCount
import CubeSatComm.Loris.RsCounter
import CubeSatComm.Loris.EndOfFile
import CubeSatComm.Loris.UntilReader
import CubeSatComm.Lib.Lines
import CubeSatComm.Posix.Text
import CubeSatComm.Serial.Chat
import CubeSatComm.Serial.ChatListen
import CubeSatComm.Serial.ChatSend
import CubeSatComm.Serial.ReadLine
import CubeSatComm.Csp.Loopback
import CubeSatComm.Lib.Custody
import CubeSatComm.Csp.PerformanceTest
import CubeSatComm.Csp.BufferCustody
import CubeSatComm.Lib.Crc
import CubeSatComm.Lib.BigEndian
import CubeSatComm.Csp.DataPacket
import CubeSatComm.Csp.Crc32
import CubeSatComm.Csp.Kiss
import CubeSatComm.Csp.KissFraming
import CubeSatComm.Csp.KissDelivery
import CubeSatComm.Lib.SerialNumber
import CubeSatComm.Csp.Rdp
import CubeSatComm.Csp.RdpSteps
import CubeSatComm.Csp.RdpReceiver
import CubeSatComm.Csp.RdpLink
import CubeSatComm.Csp.RdpDelivery
import CubeSatComm.Lib.BitField
import CubeSatComm.Csp.Can
import CubeSatComm.Csp.CanFrames
import CubeSatComm.Csp.CanReassembly
import CubeSatComm.Csp.CanDelivery
import CubeSatComm.Lib.BlockHash
import CubeSatComm.Lib.SecureHash
import CubeSatComm.Csp.Sha1
import CubeSatComm.Csp.Trailer
import CubeSatComm.Csp.Hmac
import CubeSatComm.Lib.StreamCipher
import CubeSatComm.Csp.Xtea
import CubeSatComm.Csp.Security
import CubeSatComm.Csp.SecurityLayers
import CubeSatComm.Lib.Fragment
import CubeSatComm.Csp.Sfp
import CubeSatComm.Csp.SfpReceiver
import CubeSatComm.Csp.SfpTransfer
