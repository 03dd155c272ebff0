import WasmRdp.Mirror
import WasmRdp.GfxChannel
import WasmRdp.Avc420
import WasmRdp.Upgrade
import WasmRdp.RelayRun
import WasmRdp.RailOrders
import WasmRdp.RailBounds
import WasmRdp.RailClip
import WasmRdp.RailSurface
import WasmRdp.Turnover
import WasmRdp.DownloadEnds
import WasmRdp.FileOffer
import WasmRdp.FormatData
import WasmRdp.LatestOnly
import WasmRdp.ClipEcho
import WasmRdp.LastCopyWins
import WasmRdp.KeysUp
import WasmRdp.KeyOrder
import WasmRdp.HeldKey
import WasmRdp.PasteAck
import WasmRdp.Cancel
import WasmRdp.StaleEnd
import WasmRdp.Retry
import WasmRdp.Resize
import WasmRdp.Monitors
import WasmRdp.Relayout
import WasmRdp.Repaint
import WasmRdp.RdpsndRun
import WasmRdp.WaveSplit
import WasmRdp.AudioWorklet
import WasmRdp.IconAlpha
import WasmRdp.AnnexB
import WasmRdp.CredsspTlv
import WasmRdp.RailClientOrder
import WasmRdp.RailChannel
import WasmRdp.ForeignPixels
import WasmRdp.ClipArith
import WasmRdp.MonitorSurfaces
import WasmRdp.AudioNotes
import WasmRdp.Resampler
import WasmRdp.Lib.Json
import WasmRdp.Lib.ScriptData
import WasmRdp.Lib.ScriptCode
import WasmRdp.PageConfig
import WasmRdp.TlsHex
import WasmRdp.PointerMoves
import WasmRdp.Lib.Word32
import WasmRdp.Gfx32
import WasmRdp.Gfx32Loops
import WasmRdp.Gfx32Run
import WasmRdp.RdpsndWire
import WasmRdp.RdpsndCodec
import WasmRdp.RdpsndReplyCodec
import WasmRdp.RdpsndServer
import WasmRdp.RdpsndLink
import WasmRdp.Lib.Fnv
import WasmRdp.CursorCache
import WasmRdp.VideoDecoders
import WasmRdp.Rdstls
import WasmRdp.RelayedTask
import WasmRdp.Handover
import WasmRdp.RedirectHops
import WasmRdp.SessionLink
import WasmRdp.Connection
import WasmRdp.AssetCache
import WasmRdp.AudioPage
import WasmRdp.AudioPageRun
import WasmRdp.AudioDecoders
import WasmRdp.SessionLoop
