import Jterm.Lib.Runs
import Jterm.Proxy.GoNet
import Jterm.Proxy.Main
import Jterm.Proxy.Relay
import Jterm.Page.Connect
import Jterm.Page.Repaint
import Jterm.Ssh.ChannelWrite
import Jterm.Ssh.ChannelRequests
import Jterm.Ssh.Startup
import Jterm.Ssh.Resize
import Jterm.Lib.Memory
import Jterm.Lib.Grid
import Jterm.Ssh.TransportRead
import Jterm.Ssh.Reentry
import Jterm.Vterm.Encoding
import Jterm.Vterm.Rect
import Jterm.Vterm.State
import Jterm.Vterm.Csi
import Jterm.Vterm.Screen
import Jterm.Vterm.Parser
import Jterm.Vterm.Webvterm
import Jterm.Vterm.Cursor
import Jterm.Vterm.OnScreen
import Jterm.Vterm.Damage
import Jterm.Vterm.FlushDamage
import Jterm.Page.Getline
import Jterm.Page.Resizing
import Jterm.Proxy.Routing
import Jterm.Vterm.Prescroll
import Jterm.Vterm.ResizeDamage
import Jterm.Vterm.CellBuffers
import Jterm.Vterm.Recorded
import Jterm.Page.DrawnCursor
import Jterm.Page.ClosedRecv
import Jterm.Page.ConnectSequence
import Jterm.Page.FreshHtml
import Jterm.Ssh.LoginOnce
import Jterm.Ssh.ShellShown
import Jterm.Vterm.Chunks
import Jterm.Proxy.Destination
import Jterm.Vterm.CsiReceived
import Jterm.Page.Transfers
import Jterm.Vterm.TermGrid
import Jterm.Vterm.Editing
import Jterm.Vterm.Agree
import Jterm.Vterm.AltScreen
import Jterm.Vterm.Utf8
import Jterm.Lib.Blocks
import Jterm.Ssh.TransportSend
import Jterm.Ssh.PacketRead
import Jterm.Ssh.PacketStream
import Jterm.Ssh.PacketCall
import Jterm.Ssh.PacketLink
import Jterm.Ssh.KexInit
import Jterm.Ssh.KexAgree
import Jterm.Ssh.KexProposal
import Jterm.Ssh.ChannelWindow
import Jterm.Ssh.FlowControl
import Jterm.Ssh.WriteWindow
import Jterm.Ssh.Banner
import Jterm.Lib.Typewriter
import Jterm.Vterm.PlainText
import Jterm.Vterm.PlainBytes
