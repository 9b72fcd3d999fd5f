import PlayWithOpencv.ProfilerOwnership
import PlayWithOpencv.ProfilerSlots
import PlayWithOpencv.PmuRecord
import PlayWithOpencv.PmuRegions
import PlayWithOpencv.ProfilerStopwatch
import PlayWithOpencv.LkDemoHandover
import PlayWithOpencv.LkDemoClicks
import PlayWithOpencv.LkDemoBuffers
import PlayWithOpencv.LkDemoKeys
import PlayWithOpencv.LkDemoTracker
import PlayWithOpencv.GstTensor
import PlayWithOpencv.GstCompare
import PlayWithOpencv.GstBrightness
import PlayWithOpencv.GstSegment
import PlayWithOpencv.GroupBy
import PlayWithOpencv.BmPrepare
import PlayWithOpencv.BmCategories
import PlayWithOpencv.BmCoordinates
import PlayWithOpencv.BmGroups
import PlayWithOpencv.BmGrid
import PlayWithOpencv.BmMain
import PlayWithOpencv.MemcpyLoops
import PlayWithOpencv.SimpleperfReturns
import PlayWithOpencv.SimpleperfRunCmd
import PlayWithOpencv.SimpleperfOptions
import PlayWithOpencv.IcacheTest
import PlayWithOpencv.IcacheUsage
import PlayWithOpencv.Pftest
import PlayWithOpencv.Memeater
import PlayWithOpencv.PerfEventOpen
