import Akbuilder.Media.Single
import Akbuilder.Media.Avs
import Akbuilder.Media.Fresh
import Akbuilder.Media.LateMarker
import Akbuilder.Media.Multi
import Akbuilder.Media.H265
import Akbuilder.Media.Vc1
import Akbuilder.Media.Probe
import Akbuilder.Media.Mpeg4Rate
import Akbuilder.Media.Timing
import Akbuilder.Media.FramePoolBuffers
import Akbuilder.Media.SchedulerService
import Akbuilder.Vout.HintSafety
import Akbuilder.Vout.Protocol
import Akbuilder.Dhd.OffloadSet
import Akbuilder.Dhd.Accesses
import Akbuilder.Dhd.RxPathSafety
import Akbuilder.Osl.StaticPkt
import Akbuilder.Hdmi.Stock
import Akbuilder.Hdmi.Debug
import Akbuilder.Undtb.Container
import Akbuilder.Undtb.Extract
import Akbuilder.UpdMaker.Flash
import Akbuilder.UpdMaker.Script
import Akbuilder.BootImg.Repack
